import HuntWarden.Presets.Executor

/-! What the coverage of a preset says of its run. Every step is a success exactly when it has seen nothing
    that it marks as incomplete, so a coverage run is complete exactly when no step has. An answer of status
    SUCCESS is never marked, whatever gaps it declares. -/

namespace HuntWarden.Presets

open Outcome

/-! ### Events -/

/-- The executor counts the event as incomplete. -/
def Event.marked : Event → Bool
  | .page details => isIncompleteRemotePage details
  | .answer details => details.status = .partialAnswer
  | .failed _ | .pageLimit | .shortfall _ => true

/-- Something is missing from what the step was to see: a page or an answer has a gap that no following page
    makes up for, a call has failed, the pages were cut off, or the step itself falls short. -/
def Event.Gap : Event → Prop
  | .page details => onlyResumablePageBoundary details = false ∧
      (details.status = .partialAnswer ∨ details.gaps ≠ [])
  | .answer details => details.status = .partialAnswer ∨ details.gaps ≠ []
  | .failed _ | .pageLimit | .shortfall _ => True

/-- A gap in an answer that says it has none. -/
def Event.Silent (e : Event) : Prop := e.Gap ∧ e.marked = false

instance (e : Event) : Decidable e.Gap := by
  cases e <;> unfold Event.Gap <;> infer_instance

instance (e : Event) : Decidable e.Silent := inferInstanceAs (Decidable (e.Gap ∧ e.marked = false))

/-- What the executor marks is a gap. -/
theorem Event.gap_of_marked {e : Event} (h : e.marked = true) : e.Gap := by
  cases e with
  | page details =>
    simp only [Event.marked, isIncompleteRemotePage, Bool.and_eq_true, decide_eq_true_eq,
      Bool.not_eq_true'] at h
    exact ⟨h.2, Or.inl h.1⟩
  | answer details => exact Or.inl (of_decide_eq_true h)
  | _ => trivial

/-- The silent gaps are those of answers of status SUCCESS. -/
theorem Event.silent_iff {e : Event} : e.Silent ↔ ∃ details : RemoteResultDetails,
    details.status = .success ∧ details.gaps ≠ [] ∧
      (e = .answer details ∨ e = .page details ∧ onlyResumablePageBoundary details = false) := by
  have hsuccess : ∀ {status : AnswerStatus}, status ≠ .partialAnswer ↔ status = .success := by
    intro status
    cases status <;> simp
  constructor
  · rintro ⟨hgap, hmarked⟩
    cases e with
    | page details =>
      simp only [Event.marked, isIncompleteRemotePage, Bool.and_eq_false_iff, decide_eq_false_iff_not,
        Bool.not_eq_false'] at hmarked
      have hstatus : details.status ≠ .partialAnswer := by
        rcases hmarked with h | h
        · exact h
        · rw [hgap.1] at h; cases h
      exact ⟨details, hsuccess.1 hstatus, hgap.2.resolve_left hstatus, Or.inr ⟨rfl, hgap.1⟩⟩
    | answer details =>
      have hstatus : details.status ≠ .partialAnswer := of_decide_eq_false hmarked
      exact ⟨details, hsuccess.1 hstatus, hgap.resolve_left hstatus, Or.inl rfl⟩
    | _ => cases hmarked
  · rintro ⟨details, hstatus, hgaps, rfl | ⟨rfl, hboundary⟩⟩
    · exact ⟨Or.inr hgaps, by simp [Event.marked, hstatus]⟩
    · exact ⟨⟨hboundary, Or.inr hgaps⟩, by simp [Event.marked, isIncompleteRemotePage, hstatus]⟩

/-! ### A step says what it has seen -/

/-- The step is a success exactly when it has seen nothing that counts as incomplete. -/
def StepRun.Told (run : StepRun) : Prop :=
  run.outcome.status = .success ↔ ∀ e ∈ run.seen, e.marked = false

theorem settled_success {isPartial : Bool} : settled isPartial = .success ↔ isPartial = false := by
  cases isPartial <;> simp [settled]

theorem any_false {seen : List Event} :
    seen.any Event.marked = false ↔ ∀ e ∈ seen, e.marked = false := by
  simp

theorem refused_told (reason : String) : (refused reason).Told := by
  simp [StepRun.Told, refused, Event.marked]

theorem shortfallIf_any {check : Bool} {reason : String} :
    (shortfallIf check reason).any Event.marked = check := by
  cases check <;> rfl

theorem idle_told (isPartial : Bool) (reason : String) (given : Bool) :
    (idle isPartial reason given).Told := by
  rw [StepRun.Told, idle, settled_success, ← any_false, shortfallIf_any]

/-! The pages. -/

def Pages.Told (p : Pages) : Prop := p.isPartial = p.seen.any Event.marked

def Paged.Told (paged : Paged) : Prop :=
  match paged.result with
  | .ok outcome => outcome.status = settled (paged.seen.any Event.marked)
  | .error _ => paged.seen.any Event.marked = true

theorem Pages.Told.add {p : Pages} (h : p.Told) (details : RemoteResultDetails) : (p.add details).Told := by
  rw [Pages.Told] at h
  simp [Pages.Told, Pages.add, h, Event.marked]

section

variable {w : StepWorld} {item : ℕ}

theorem limited_told {p : Pages} {event : Event} (he : event.marked = true) (reason : String) :
    (p.limited w item event reason).Told := by
  have hany : (p.seen ++ [event]).any Event.marked = true := by simp [he]
  rw [Paged.Told, Pages.limited]
  dsimp only
  rw [hany]
  cases limitDiscoveryCheckpoint w item p.cursorRef with
  | none => rfl
  | some thrown => rfl

theorem interrupted_told (p : Pages) (reason : String) : (p.interrupted w item reason).Told := by
  rw [Pages.interrupted]
  split
  · simp [Paged.Told, Event.marked]
  · exact limited_told rfl reason

/-- A page is added to what was seen before, and the loop ends or goes on. -/
theorem turnPages_told : ∀ {left page : ℕ} {p : Pages}, p.Told → (turnPages w item left page p).Told
  | 0, _, _, _ => limited_told rfl _
  | left + 1, page, p, h => by
      rw [turnPages]
      split
      · simp [Paged.Told, Event.marked]
      · exact interrupted_told p _
      · exact interrupted_told _ _
      · rename_i details _
        split
        · exact congrArg settled (h.add details)
        · exact turnPages_told (h.add details)

theorem executePaged_told : (executePaged w item).Told := turnPages_told rfl

end

/-! The loops. -/

def Tally.Told (t : Tally) : Prop := t.isPartial = t.seen.any Event.marked

namespace Tally.Told

variable {t : Tally}

theorem start {missing : List Event} (h : ∀ e ∈ missing, e.marked = true) : (Tally.start missing).Told := by
  cases missing with
  | nil => rfl
  | cons e rest => simp [Tally.Told, Tally.start, h e List.mem_cons_self]

theorem start_nil : (Tally.start []).Told := rfl

theorem miss {event : Event} (he : event.marked = true) : (t.miss event).Told := by
  simp [Tally.Told, Tally.miss, he]

theorem missIf (h : t.Told) (check : Bool) (reason : String) : (t.missIf check reason).Told := by
  rw [Tally.missIf]
  split
  · exact miss rfl
  · exact h

theorem addPaged (h : t.Told) {paged : Paged} (hpaged : paged.Told) : (t.addPaged paged).Told := by
  rw [Tally.Told] at h
  rw [Paged.Told] at hpaged
  rw [Tally.Told, Tally.addPaged]
  cases hresult : paged.result with
  | ok outcome =>
    rw [hresult] at hpaged
    dsimp only at hpaged ⊢
    rw [List.any_append, h, hpaged, settled]
    cases paged.seen.any Event.marked <;> rfl
  | error reason =>
    rw [hresult] at hpaged
    dsimp only at hpaged ⊢
    rw [List.any_append, hpaged, Bool.or_true]

theorem addAnswer (h : t.Told) (details : RemoteResultDetails) (counted : ℕ) :
    (t.addAnswer details counted).Told := by
  rw [Tally.Told] at h
  simp [Tally.Told, Tally.addAnswer, h, Event.marked]

theorem bind (h : t.Told) (sourceRef : String) (objectRefs : List String) :
    (t.bind sourceRef objectRefs).Told := h

theorem finish (h : t.Told) (reason : Option String) : (t.finish reason).Told := by
  rw [StepRun.Told, Tally.finish, settled_success, ← any_false]
  exact iff_of_eq (congrArg (· = false) h)

end Tally.Told

theorem marked_of_shortfallIf {check : Bool} {reason : String} :
    ∀ e ∈ shortfallIf check reason, e.marked = true := by
  cases check <;> simp [shortfallIf, Event.marked]

/-- What the body keeps for each object, the loop keeps. -/
theorem eachOf_told {α : Type} {body : Tally → ℕ → α → Except String Tally}
    (hbody : ∀ {t i a t'}, t.Told → body t i a = .ok t' → t'.Told) {items : List α} {start t : Tally}
    (hstart : start.Told) (h : eachOf items start body = .ok t) : t.Told := by
  rw [eachOf] at h
  generalize items.zipIdx = entries at h
  induction entries generalizing start with
  | nil =>
    rw [List.foldlM_nil, pure_ok] at h
    exact h ▸ hstart
  | cons entry rest ih =>
    rw [List.foldlM_cons, bind_ok] at h
    obtain ⟨next, hnext, hrest⟩ := h
    exact ih (hbody hstart hnext) hrest

theorem halt_ok {thrown : Option String} {u : Unit} : halt thrown = .ok u ↔ thrown = none := by
  cases thrown <;> simp [halt]

section

variable {deps : Deps} {preset : PresetDefinition} {step : PresetStep} {w : StepWorld} {run : StepRun}

theorem executeStep_told : (executeStep deps step w).Told := by
  rw [executeStep]
  dsimp only
  split
  · exact refused_told _
  · have hpaged : (executePaged w 0).Told := executePaged_told
    rw [Paged.Told] at hpaged
    cases hresult : (executePaged w 0).result with
    | ok outcome =>
      rw [hresult] at hpaged
      dsimp only at hpaged ⊢
      rw [StepRun.Told, hpaged, settled_success, any_false]
    | error reason =>
      rw [hresult] at hpaged
      dsimp only at hpaged ⊢
      rw [StepRun.Told, ← any_false, hpaged]
      simp

theorem scopeBody_told {t t' : Tally} {i : ℕ} {root : String} (ht : t.Told)
    (h : scopeBody w t i root = .ok t') : t'.Told := by
  rw [scopeBody] at h
  simp only [bind_ok, halt_ok] at h
  obtain ⟨_, -, h⟩ := h
  split at h
  · rw [← pure_ok.1 h]; exact .miss rfl
  · split at h
    · rw [← pure_ok.1 h]; exact .miss rfl
    · rw [← pure_ok.1 h]; exact .miss rfl
    · rw [← pure_ok.1 h]; exact ht.addPaged executePaged_told

theorem fixedFileScope_told (h : executeFixedFileScopeFanout deps preset w = .ok run) : run.Told := by
  rw [executeFixedFileScopeFanout] at h
  split at h
  · cases h; exact refused_told _
  · obtain ⟨t, ht, hrun⟩ := bind_ok.1 h
    rw [← pure_ok.1 hrun]
    exact (eachOf_told scopeBody_told .start_nil ht).finish _

theorem packageBody_told {t t' : Tally} {i : ℕ} {package : String × String} (ht : t.Told)
    (h : packageBody w t i package = .ok t') : t'.Told := by
  rw [packageBody] at h
  split at h
  · cases h; exact (ht.addPaged executePaged_told).bind _ _
  · cases h; exact ht.addPaged executePaged_told

theorem packageFile_told {packages : Option StepOutcome}
    (h : executePackageFileFanout deps step w packages = .ok run) : run.Told := by
  rw [executePackageFileFanout] at h
  dsimp only at h
  split at h
  · cases h; exact refused_told _
  · split at h
    · cases h; exact idle_told _ _ _
    · split at h
      · cases h; exact refused_told _
      · obtain ⟨t, ht, hrun⟩ := bind_ok.1 h
        rw [← pure_ok.1 hrun]
        exact ((eachOf_told packageBody_told .start_nil ht).missIf _ _).finish _

theorem verifyBody_told {t t' : Tally} {i : ℕ} {ref : String} (ht : t.Told)
    (h : verifyBody w t i ref = .ok t') : t'.Told := by
  rw [verifyBody] at h
  split at h
  · cases h; exact ht.addAnswer _ _
  · split at h
    · cases h; exact ht.addAnswer _ _
    · cases h; exact .miss rfl

theorem verify_told {files : Option StepOutcome}
    (h : executeVerifyFanout deps step w files = .ok run) : run.Told := by
  rw [executeVerifyFanout] at h
  split at h
  · cases h; exact refused_told _
  · split at h
    · cases h; exact idle_told _ _ _
    · split at h
      · cases h; exact refused_told _
      · obtain ⟨t, ht, hrun⟩ := bind_ok.1 h
        rw [← pure_ok.1 hrun]
        exact (eachOf_told verifyBody_told .start_nil ht).finish _

theorem webRootBody_told {t t' : Tally} {i : ℕ} {ref : String} (ht : t.Told)
    (h : webRootBody w t i ref = .ok t') : t'.Told := by
  rw [webRootBody] at h
  obtain ⟨_, -, h⟩ := bind_ok.1 h
  dsimp only at h
  split at h
  · obtain ⟨_, -, h⟩ := bind_ok.1 h
    rw [← pure_ok.1 h]
    exact ht.addPaged executePaged_told
  · rw [← pure_ok.1 h]; exact .miss rfl

theorem marked_of_append {xs ys : List Event} (hx : ∀ e ∈ xs, e.marked = true)
    (hy : ∀ e ∈ ys, e.marked = true) : ∀ e ∈ xs ++ ys, e.marked = true := by
  intro e he
  exact (List.mem_append.1 he).elim (hx e) (hy e)

theorem webFile_told {roots : Option StepOutcome}
    (h : executeWebFileFanout deps w roots = .ok run) : run.Told := by
  rw [executeWebFileFanout] at h
  split at h
  · cases h; exact refused_told _
  · split at h
    · cases h; exact idle_told _ _ _
    · split at h
      · cases h; exact refused_told _
      · obtain ⟨t, ht, hrun⟩ := bind_ok.1 h
        rw [← pure_ok.1 hrun]
        have htold : t.Told :=
          eachOf_told webRootBody_told (.start (marked_of_append marked_of_shortfallIf marked_of_shortfallIf)) ht
        exact htold.finish _

theorem inspectBody_told {t t' : Tally} {i j : ℕ} {target : InspectionTarget} (ht : t.Told)
    (h : inspectBody w i t j target = .ok t') : t'.Told := by
  rw [inspectBody] at h
  obtain ⟨_, -, h⟩ := bind_ok.1 h
  split at h
  · rw [← pure_ok.1 h]; exact ht.addAnswer _ _
  · rw [← pure_ok.1 h]; exact .miss rfl

theorem inspectBinding_told {facts : List FactRecord} {t t' : Tally} {i : ℕ} {binding : Binding}
    (ht : t.Told) (h : inspectBinding deps w facts t i binding = .ok t') : t'.Told := by
  rw [inspectBinding] at h
  dsimp only at h
  split at h
  · rw [← pure_ok.1 h]; exact .miss rfl
  · obtain ⟨inner, hinner, h⟩ := bind_ok.1 h
    have htold : inner.Told := eachOf_told inspectBody_told (ht.missIf _ _) hinner
    rw [← pure_ok.1 h]
    split
    · exact htold
    · exact htold.bind _ _

theorem classInspect_told {inventory : Option StepOutcome}
    (h : executeClassInspectFanout deps w inventory = .ok run) : run.Told := by
  rw [executeClassInspectFanout] at h
  split at h
  · cases h; exact refused_told _
  · obtain ⟨t, ht, hrun⟩ := bind_ok.1 h
    have htold : t.Told := eachOf_told inspectBinding_told (.start marked_of_shortfallIf) ht
    rw [← pure_ok.1 hrun]
    split
    · exact Tally.Told.finish (t := { t with fanout := [] }) htold _
    · exact htold.finish _

theorem dumpBody_told {t t' : Tally} {i j : ℕ} {fact : FactRecord} (ht : t.Told)
    (h : dumpBody w i t j fact = .ok t') : t'.Told := by
  rw [dumpBody] at h
  split at h
  · cases h; exact .miss rfl
  · obtain ⟨_, -, h⟩ := bind_ok.1 h
    split at h
    · rw [← pure_ok.1 h]; exact (ht.addAnswer _ _).missIf _ _
    · rw [← pure_ok.1 h]; exact .miss rfl

theorem classDump_told {inspected : Option StepOutcome}
    (h : executeClassDumpFanout deps w inspected = .ok run) : run.Told := by
  rw [executeClassDumpFanout] at h
  split at h
  · cases h; exact refused_told _
  · obtain ⟨t, ht, hrun⟩ := bind_ok.1 h
    have htold : t.Told := eachOf_told (eachOf_told dumpBody_told) (.start marked_of_shortfallIf) ht
    rw [← pure_ok.1 hrun]
    exact (htold.missIf _ _).finish _

theorem probeBody_told {t t' : Tally} {i : ℕ} {ref : String} (ht : t.Told)
    (h : probeBody w t i ref = .ok t') : t'.Told := by
  rw [probeBody] at h
  split at h
  · cases h; exact (ht.addAnswer _ _).bind _ _
  · cases h; exact .miss rfl

theorem probe_told {discovery : Option StepOutcome}
    (h : executeProbeFanout deps w discovery = .ok run) : run.Told := by
  rw [executeProbeFanout] at h
  dsimp only at h
  split at h
  · cases h; exact refused_told _
  · split at h
    · cases h; exact idle_told _ _ _
    · split at h
      · cases h; exact refused_told _
      · obtain ⟨t, ht, hrun⟩ := bind_ok.1 h
        rw [← pure_ok.1 hrun]
        have htold : t.Told :=
          eachOf_told probeBody_told (.start (marked_of_append marked_of_shortfallIf marked_of_shortfallIf)) ht
        exact htold.finish _

/-- Every step of a preset is a success exactly when it has seen nothing that counts as incomplete. -/
theorem executeNamed_told {world : World} {outcomes : Outcomes}
    (h : executeNamed deps world preset step outcomes = .ok run) : run.Told := by
  rw [executeNamed] at h
  split at h
  · exact webFile_told h
  split at h
  · exact fixedFileScope_told h
  split at h
  · exact packageFile_told h
  split at h
  · exact verify_told h
  split at h
  · exact probe_told h
  split at h
  · exact classInspect_told h
  split at h
  · exact classDump_told h
  · cases h; exact executeStep_told

end

/-! ### The outcomes of a preset -/

/-- Outcomes of steps of the preset, one for each, that say what was seen. -/
structure Partway (preset : PresetDefinition) (outcomes : Outcomes) : Prop where
  nodup : (outcomes.map Prod.fst).Nodup
  known : ∀ id ∈ outcomes.map Prod.fst, id ∈ stepIds preset
  told : ∀ entry ∈ outcomes, entry.2.Told

theorem Partway.empty (preset : PresetDefinition) : Partway preset [] :=
  ⟨List.nodup_nil, fun _ h => absurd h List.not_mem_nil, fun _ h => absurd h List.not_mem_nil⟩

theorem Partway.add {preset : PresetDefinition} {outcomes : Outcomes} (h : Partway preset outcomes)
    {id : String} {run : StepRun} (hnew : id ∉ outcomes.map Prod.fst) (hid : id ∈ stepIds preset)
    (hrun : run.Told) : Partway preset (outcomes ++ [(id, run)]) where
  nodup := by
    rw [List.map_append, List.nodup_append]
    refine ⟨h.nodup, List.nodup_singleton _, fun a ha b hb => ?_⟩
    rw [List.map_singleton, List.mem_singleton] at hb
    rw [hb]
    rintro rfl
    exact hnew ha
  known := by
    intro a ha
    rw [List.map_append, List.mem_append, List.map_singleton, List.mem_singleton] at ha
    rcases ha with ha | rfl
    · exact h.known a ha
    · exact hid
  told := by
    intro entry hentry
    rcases List.mem_append.1 hentry with hentry | hentry
    · exact h.told entry hentry
    · rw [List.mem_singleton.1 hentry]; exact hrun

/-- The loop over the steps leaves none of them without an outcome. -/
theorem runSteps_partway {deps : Deps} {world : World} {preset : PresetDefinition} :
    ∀ {steps : List PresetStep} {outcomes outcomes' : Outcomes}, (∀ step ∈ steps, step ∈ preset.steps) →
      Partway preset outcomes → runSteps deps world preset steps outcomes = .ok outcomes' →
      Partway preset outcomes' ∧ (∀ id ∈ outcomes.map Prod.fst, id ∈ outcomes'.map Prod.fst) ∧
        ∀ step ∈ steps, step.stepId ∈ outcomes'.map Prod.fst
  | [], outcomes, outcomes', _, hpart, h => by
      cases h
      exact ⟨hpart, fun _ hid => hid, fun _ hstep => absurd hstep List.not_mem_nil⟩
  | step :: rest, outcomes, outcomes', hsteps, hpart, h => by
      have hrest : ∀ step ∈ rest, step ∈ preset.steps := fun _ h => hsteps _ (List.mem_cons_of_mem _ h)
      rw [runSteps] at h
      split at h
      · rename_i hdone
        obtain ⟨hpart', hkeep, hall⟩ := runSteps_partway hrest hpart h
        refine ⟨hpart', hkeep, fun other hother => ?_⟩
        rcases List.mem_cons.1 hother with rfl | hother
        · exact hkeep _ hdone
        · exact hall other hother
      · rename_i hnew
        obtain ⟨run, hrun, h⟩ := bind_ok.1 h
        have hid : step.stepId ∈ stepIds preset := List.mem_map_of_mem (hsteps _ List.mem_cons_self)
        obtain ⟨hpart', hkeep, hall⟩ :=
          runSteps_partway hrest (hpart.add hnew hid (executeNamed_told hrun)) h
        have hkeys : ∀ id ∈ outcomes.map Prod.fst ++ [step.stepId], id ∈ outcomes'.map Prod.fst := by
          intro id hmem
          exact hkeep id (by rwa [List.map_append, List.map_singleton])
        refine ⟨hpart', fun id hmem => hkeys id (List.mem_append_left _ hmem), fun other hother => ?_⟩
        rcases List.mem_cons.1 hother with rfl | hother
        · exact hkeys _ (List.mem_append_right _ (List.mem_singleton_self _))
        · exact hall other hother

theorem runPrelude_partway {deps : Deps} {world : World} {preset : PresetDefinition} :
    ∀ {ids : List String} {outcomes outcomes' : Outcomes}, Partway preset outcomes →
      runPrelude deps world preset ids outcomes = .ok outcomes' → Partway preset outcomes'
  | [], _, _, hpart, h => by cases h; exact hpart
  | id :: rest, outcomes, outcomes', hpart, h => by
      rw [runPrelude] at h
      split at h
      · exact runPrelude_partway hpart h
      · rename_i step hstep
        split at h
        · exact runPrelude_partway hpart h
        · rename_i hnew
          obtain ⟨_, -, h⟩ := bind_ok.1 h
          have hfound := List.find?_some hstep
          have hid : step.stepId = id := of_decide_eq_true hfound
          have hmem : id ∈ stepIds preset := by
            rw [← hid]
            exact List.mem_map_of_mem (List.mem_of_find?_eq_some hstep)
          exact runPrelude_partway (hpart.add hnew hmem executeStep_told) h

/-! ### Runs -/

/-- A preset of the registry whose steps all have an outcome, with the coverage that follows from them. -/
structure WellRun (run : PresetRun) : Prop where
  registered : run.preset ∈ presetRegistry
  partway : Partway run.preset run.outcomes
  all : ∀ id ∈ stepIds run.preset, id ∈ run.outcomes.map Prod.fst
  coverage : ∃ coverageId, run.coverage = coverageRun run.outcomes run.preset coverageId

structure Executor.Sound (s : Executor) : Prop where
  seeded : ∀ entry ∈ s.seeded, ∀ preset ∈ presetRegistry, preset.presetId = entry.1 →
    Partway preset entry.2
  recorded : ∀ run ∈ s.recorded, WellRun run

theorem Executor.empty_sound : Executor.empty.Sound :=
  ⟨fun _ h => absurd h List.not_mem_nil, fun _ h => absurd h List.not_mem_nil⟩

section

variable {deps : Deps} {world : World} {s : Executor}

/-- What a prelude has left for a preset. -/
theorem Executor.Sound.seeded_partway (hs : s.Sound) {preset : PresetDefinition}
    (hpreset : preset ∈ presetRegistry) :
    Partway preset ((s.seeded.lookup preset.presetId).getD []) := by
  cases hlookup : s.seeded.lookup preset.presetId with
  | none => exact .empty preset
  | some outcomes => exact hs.seeded _ (OrderedMap.mem_of_lookup hlookup) preset hpreset rfl

theorem runPreset_wellRun (hs : s.Sound) {preset : PresetDefinition} (hpreset : preset ∈ presetRegistry)
    {run : PresetRun} (h : runPreset deps world s.seeded preset = .ok run) : WellRun run := by
  rw [runPreset] at h
  obtain ⟨_, -, h⟩ := bind_ok.1 h
  obtain ⟨outcomes, houtcomes, h⟩ := bind_ok.1 h
  obtain ⟨_, -, h⟩ := bind_ok.1 h
  rw [← pure_ok.1 h]
  obtain ⟨hpart, -, hall⟩ := runSteps_partway (fun _ h => h) (hs.seeded_partway hpreset) houtcomes
  refine ⟨hpreset, hpart, fun id hid => ?_, _, rfl⟩
  obtain ⟨step, hstep, rfl⟩ := List.mem_map.1 hid
  exact hall step hstep

theorem runPresets_wellRun (hs : s.Sound) : ∀ {presets : List PresetDefinition},
    (∀ preset ∈ presets, preset ∈ presetRegistry) →
      ∀ run ∈ runPresets deps world s.seeded presets, WellRun run
  | [], _ => fun _ h => absurd h List.not_mem_nil
  | preset :: rest, hpresets => by
      intro run hrun
      rw [runPresets] at hrun
      split at hrun
      · rename_i first hfirst
        rcases List.mem_cons.1 hrun with rfl | hrun
        · exact runPreset_wellRun hs (hpresets _ List.mem_cons_self) hfirst
        · exact runPresets_wellRun hs (fun _ h => hpresets _ (List.mem_cons_of_mem _ h)) run hrun
      · exact absurd hrun List.not_mem_nil

theorem prelude_sound (hs : s.Sound) : (runVolatilePrelude deps world s).Sound := by
  rw [runVolatilePrelude]
  split
  · exact hs
  · rename_i preset hpreset
    have hmem : preset ∈ presetRegistry := mem_registry (List.mem_of_find?_eq_some hpreset)
    split
    · rename_i outcomes houtcomes
      have hpart := runPrelude_partway (hs.seeded_partway hmem) houtcomes
      refine ⟨fun entry hentry other hother hid => ?_, hs.recorded⟩
      have hset : ∀ {entry : String × Outcomes}, entry = (preset.presetId, outcomes) →
          other.presetId = entry.1 → Partway other entry.2 := by
        rintro _ rfl hid
        rw [preset_unique other hother preset hmem hid]
        exact hpart
      rcases OrderedMap.mem_upsert hentry with h | h | ⟨_, -, h⟩
      · exact hs.seeded entry h other hother hid
      · exact hset h hid
      · exact hset h hid
    · exact hs

theorem step_sound (hs : s.Sound) (op : Op) : (step deps s op).Sound := by
  cases op with
  | volatilePrelude world => exact prelude_sound hs
  | run world =>
    refine ⟨hs.seeded, fun run hrun => ?_⟩
    rcases List.mem_append.1 hrun with hrun | hrun
    · exact hs.recorded run hrun
    · exact runPresets_wellRun hs (fun _ => mem_registry) run hrun

theorem runOps_sound (ops : List Op) : (runOps deps ops).Sound :=
  Runs.run_invariant (I := Executor.Sound) (fun _ op hs _ => step_sound hs op) ops _
    Executor.empty_sound (Runs.along_true _ _)

end

/-! ### Honest coverage -/

def PresetRun.seen (run : PresetRun) : List Event := run.outcomes.flatMap fun entry => entry.2.seen

/-- Every step of the preset has run, succeeded, and seen no gap. -/
def PresetRun.Gapless (run : PresetRun) : Prop :=
  ∀ step ∈ run.preset.steps, ∃ stepRun, (step.stepId, stepRun) ∈ run.outcomes ∧
    stepRun.outcome.status = .success ∧ ∀ e ∈ stepRun.seen, ¬ e.Gap

/-- What the coverage on record says is so. -/
structure PresetRun.Honest (run : PresetRun) : Prop where
  complete : run.coverage.status = .complete ↔ run.Gapless
  partition : (run.coverage.completedCriteria ++ run.coverage.missingCriteria.map (·.criterion)).Perm
    (criteria run.preset)
  disjoint : ∀ missing ∈ run.coverage.missingCriteria, missing.criterion ∉ run.coverage.completedCriteria
  notApplicable : run.coverage.applicability = .notApplicable →
    run.coverage.status = .complete ∧ factCount run.outcomes = 0
  projection : (∃ e ∈ run.seen, e.Gap) → ∀ assessments,
    (safetyProjection (some run.coverage.toCoverageRun) assessments).state ≠ .noObservedFinding ∧
      (safetyProjection (some run.coverage.toCoverageRun) assessments).state ≠ .notApplicable

/-- An answer that hides a gap comes only with something else that the run marks. -/
def PresetRun.Noticed (run : PresetRun) : Prop :=
  (∃ e ∈ run.seen, e.Silent) → ∃ e ∈ run.seen, e.marked = true

/-- A list is split by a test, and what fails it is listed after what passes. -/
theorem partition_perm {α β γ : Type} (items : List α) (test : α → Bool) (name : α → β) (record : α → γ)
    (recorded : γ → β) (hrecord : ∀ a, recorded (record a) = name a) :
    ((items.filter test).map name ++
      ((items.filter fun a => !test a).map record).map recorded).Perm (items.map name) := by
  have hnames : ((items.filter fun a => !test a).map record).map recorded =
      (items.filter fun a => !test a).map name := by
    rw [List.map_map]
    exact List.map_congr_left fun a _ => hrecord a
  rw [hnames, ← List.map_append]
  exact (List.filter_append_perm test items).map name

theorem coverageStatus_complete {outcomes : Outcomes} : coverageStatus outcomes = .complete ↔
    outcomes ≠ [] ∧ ∀ entry ∈ outcomes, entry.2.outcome.status = .success := by
  rw [coverageStatus]
  split
  · rename_i h
    exact iff_of_true rfl h
  · rename_i h
    refine iff_of_false (fun heq => ?_) h
    split at heq <;> cases heq

namespace WellRun

variable {run : PresetRun}

theorem status_eq (h : WellRun run) : run.coverage.status = coverageStatus run.outcomes := by
  obtain ⟨_, hcoverage⟩ := h.coverage
  rw [hcoverage]
  rfl

theorem outcomes_ne_nil (h : WellRun run) : run.outcomes ≠ [] := by
  intro hnil
  obtain ⟨step, hstep⟩ := List.exists_mem_of_ne_nil _ (steps_ne_nil run.preset h.registered)
  have hkey := h.all step.stepId (List.mem_map_of_mem hstep)
  rw [hnil] at hkey
  exact absurd hkey List.not_mem_nil

/-- A coverage run is complete exactly when nothing was seen that counts as incomplete. -/
theorem complete_iff_marked (h : WellRun run) :
    run.coverage.status = .complete ↔ ∀ e ∈ run.seen, e.marked = false := by
  rw [h.status_eq, coverageStatus_complete, PresetRun.seen]
  constructor
  · rintro ⟨-, hall⟩ e he
    obtain ⟨entry, hentry, he⟩ := List.mem_flatMap.1 he
    exact (h.partway.told entry hentry).1 (hall entry hentry) e he
  · intro hall
    refine ⟨h.outcomes_ne_nil, fun entry hentry => (h.partway.told entry hentry).2 fun e he => ?_⟩
    exact hall e (List.mem_flatMap.2 ⟨entry, hentry, he⟩)

/-- Every step has seen no gap exactly when the run has seen none. -/
theorem gapless_iff (h : WellRun run) : run.Gapless ↔ ∀ e ∈ run.seen, ¬ e.Gap := by
  constructor
  · intro hall e he
    obtain ⟨⟨id, stepRun⟩, hentry, he⟩ := List.mem_flatMap.1 he
    obtain ⟨step, hstep, hid⟩ := List.mem_map.1 (h.partway.known id (List.mem_map_of_mem hentry))
    obtain ⟨other, hother, -, hnone⟩ := hall step hstep
    rw [hid] at hother
    obtain rfl : other = stepRun :=
      congrArg Prod.snd (List.inj_on_of_nodup_map h.partway.nodup hother hentry rfl)
    exact hnone e he
  · intro hnone step hstep
    obtain ⟨⟨id, stepRun⟩, hentry, hid⟩ := List.mem_map.1 (h.all step.stepId (List.mem_map_of_mem hstep))
    have hid : id = step.stepId := hid
    subst hid
    have hseen : ∀ e ∈ stepRun.seen, ¬ e.Gap := fun e he =>
      hnone e (List.mem_flatMap.2 ⟨_, hentry, he⟩)
    refine ⟨stepRun, hentry, (h.partway.told _ hentry).2 fun e he => ?_, hseen⟩
    exact Bool.eq_false_iff.2 fun hmarked => hseen e he (Event.gap_of_marked hmarked)

/-- The criteria are those that are complete and those that are missing. -/
theorem criteria_perm (h : WellRun run) :
    (run.coverage.completedCriteria ++ run.coverage.missingCriteria.map (·.criterion)).Perm
      (criteria run.preset) := by
  obtain ⟨_, hcoverage⟩ := h.coverage
  rw [hcoverage]
  exact partition_perm _ _ _ _ _ fun _ => rfl

theorem criteria_disjoint (h : WellRun run) : ∀ missing ∈ run.coverage.missingCriteria,
    missing.criterion ∉ run.coverage.completedCriteria := by
  have hnodup := h.criteria_perm.nodup_iff.2 (nodup_criteria run.preset h.registered)
  intro missing hmissing hcompleted
  exact (List.nodup_append.1 hnodup).2.2 _ hcompleted _ (List.mem_map_of_mem hmissing) rfl

theorem notApplicable (h : WellRun run) (happlicability : run.coverage.applicability = .notApplicable) :
    run.coverage.status = .complete ∧ factCount run.outcomes = 0 := by
  obtain ⟨_, hcoverage⟩ := h.coverage
  rw [hcoverage] at happlicability ⊢
  rw [coverageRun] at happlicability
  dsimp only at happlicability
  split at happlicability
  · assumption
  · split at happlicability <;> cases happlicability

theorem exists_marked (h : WellRun run) (hincomplete : run.coverage.status ≠ .complete) :
    ∃ e ∈ run.seen, e.marked = true := by
  by_contra hnone
  refine hincomplete (h.complete_iff_marked.2 fun e he => ?_)
  exact Bool.eq_false_iff.2 fun hmarked => hnone ⟨e, he, hmarked⟩

theorem honest_iff (h : WellRun run) : run.Honest ↔ run.Noticed := by
  constructor
  · rintro hhonest ⟨e, he, hsilent⟩
    refine h.exists_marked fun hcomplete => ?_
    exact (h.gapless_iff.1 (hhonest.complete.1 hcomplete)) e he hsilent.1
  · intro hnoticed
    have hgap : (∃ e ∈ run.seen, e.Gap) → run.coverage.status ≠ .complete := by
      rintro ⟨e, he, hgap⟩ hcomplete
      have hunmarked := h.complete_iff_marked.1 hcomplete
      obtain ⟨marked, hmem, hmarked⟩ := hnoticed ⟨e, he, hgap, hunmarked e he⟩
      rw [hunmarked marked hmem] at hmarked
      cases hmarked
    refine ⟨⟨fun hcomplete => ?_, fun hgapless => ?_⟩, h.criteria_perm, h.criteria_disjoint,
      h.notApplicable, fun hseen => safetyProjection_of_not_complete (hgap hseen)⟩
    · exact h.gapless_iff.2 fun e he hbad => hgap ⟨e, he, hbad⟩ hcomplete
    · refine h.complete_iff_marked.2 fun e he => Bool.eq_false_iff.2 fun hmarked => ?_
      exact h.gapless_iff.1 hgapless e he (Event.gap_of_marked hmarked)

end WellRun

/-! A target that answers everything alike. -/

def answeringStep (details : RemoteResultDetails) : StepWorld where
  runId _ := "PRESET-1"
  page _ _ := .answered details none
  call _ _ := .ok details
  reusable _ := none
  halted _ _ := none
  limiting _ := none
  resolve _ := .error "TARGET_UNAVAILABLE"
  granting _ := none
  facts _ := []
  webRoot _ := false

def answeringWorld (details : RemoteResultDetails) : World where
  step _ := answeringStep details
  aborted _ := none
  coverageId _ := "COV-1"
  recording _ := none

def persistenceDeps : Deps where
  checks := [.linuxPersistence]
  capabilities :=
    { namespaces := [("cron_entry", ⟨[], [], ["enumerate"]⟩), ("unit", ⟨[], [], ["enumerate"]⟩),
        ("persistence", ⟨[], [], ["enumerate"]⟩)]
      matchers := [], probes := [], verbs := ["enumerate"]
      limits := ⟨500, 1572864, 65536, 104857600⟩, protocolAnomalies := [] }
  tools := [.enumerate]
  texts := ⟨Js.plainCoercions, id⟩
  collation := Js.codeUnitCollation
  digestObject _ := ""

/-- What the runs on record have seen, and what their coverage says. -/
def summaries (details : RemoteResultDetails) : List (List Event × CoverageStatus × Applicability) :=
  (runOps persistenceDeps [.run (answeringWorld details)]).recorded.map fun run =>
    (run.seen, run.coverage.status, run.coverage.applicability)

/-- Each of the five sources is one page, and they are recorded as complete and empty. -/
def EmptyRecorded (details : RemoteResultDetails) : Prop :=
  summaries details = [(List.replicate 5 (.page details), .complete, .notApplicable)]

instance (details : RemoteResultDetails) : Decidable (EmptyRecorded details) :=
  inferInstanceAs (Decidable (_ = _))

theorem EmptyRecorded.exists_run {details : RemoteResultDetails} (h : EmptyRecorded details) :
    ∃ run ∈ (runOps persistenceDeps [.run (answeringWorld details)]).recorded,
      run.seen = List.replicate 5 (.page details) ∧ run.coverage.status = .complete ∧
        run.coverage.applicability = .notApplicable := by
  have hmem : (List.replicate 5 (Event.page details), CoverageStatus.complete, Applicability.notApplicable) ∈
      summaries details := by
    rw [EmptyRecorded] at h
    rw [h]
    exact List.mem_singleton_self _
  obtain ⟨run, hrun, heq⟩ := List.mem_map.1 hmem
  simp only [Prod.mk.injEq] at heq
  exact ⟨run, hrun, heq⟩

/-- What is on record of a preset is honest exactly when no gap hidden in an answer stands alone. -/
theorem recorded_honest_iff (deps : Deps) (ops : List Op) :
    ∀ run ∈ (runOps deps ops).recorded, run.Honest ↔ run.Noticed :=
  fun run hrun => ((runOps_sound ops).recorded run hrun).honest_iff

/-- Answers without gaps. -/
theorem gapless_honest : ∃ run ∈ (runOps persistenceDeps [.run (answeringWorld { status := .success })]).recorded,
    run.coverage.status = .complete ∧ run.Honest := by
  have hrecorded : EmptyRecorded { status := .success } := by decide
  obtain ⟨run, hrun, hseen, hstatus, -⟩ := hrecorded.exists_run
  refine ⟨run, hrun, hstatus, (recorded_honest_iff _ _ run hrun).2 ?_⟩
  rintro ⟨e, he, hsilent⟩
  rw [hseen] at he
  rw [List.eq_of_mem_replicate he] at hsilent
  exact absurd hsilent (by decide)

def hiddenGap : RemoteResultDetails where
  status := .success
  gaps := [⟨"COLLECTOR_ERROR", none, none, false⟩]

/-- No source of persistence could be read, and the category is recorded as complete and not applicable. -/
theorem hidden_gaps_not_applicable :
    ∃ run ∈ (runOps persistenceDeps [.run (answeringWorld hiddenGap)]).recorded,
      (∃ e ∈ run.seen, e.Gap) ∧ run.coverage.status = .complete ∧
        (safetyProjection (some run.coverage.toCoverageRun) []).state = .notApplicable ∧ ¬ run.Honest := by
  have hrecorded : EmptyRecorded hiddenGap := by decide
  obtain ⟨run, hrun, hseen, hstatus, happlicability⟩ := hrecorded.exists_run
  have hgap : ∃ e ∈ run.seen, e.Gap := by
    rw [hseen]
    exact ⟨.page hiddenGap, by simp, by decide⟩
  have hstate : (safetyProjection (some run.coverage.toCoverageRun) []).state = .notApplicable := by
    simp [safetyProjection, safetyState, hstatus, happlicability]
  exact ⟨run, hrun, hgap, hstatus, hstate, fun hhonest => (hhonest.projection hgap []).2 hstate⟩

end HuntWarden.Presets
