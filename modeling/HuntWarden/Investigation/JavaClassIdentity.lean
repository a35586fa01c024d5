import HuntWarden.Common.StableJson
import HuntWarden.Playbooks.Planned
import HuntWarden.Presets.Executor

/-! The classes chosen for inspection out of an inventory of Java components. Components are grouped by a
    digest of what identifies them logically, the loaders of a group are told apart by the class name and
    the loader joined with a NUL between them, and the selection says itself whether it is incomplete. It
    is right about that exactly when no two of its pairs are joined to one text. -/

namespace HuntWarden.JavaClassIdentity

open OrderedMap Playbooks Presets StableJson

/-! ### What is to be selected -/

section

variable (deps : Deps)

/-- What the digest of a logical component is of. -/
def logicalIdentity (payload : Payload) (className : String) : Json :=
  .obj [("className", .str className),
    ("context", orNull (coalesce (field payload "context") (field payload "contextPath"))),
    ("componentKind", orNull (field payload "componentKind")), ("name", orNull (field payload "name"))]

def className? (fact : FactRecord) : Option String := usableField deps fact.privatePayload "className"

/-- The logical component a fact is about; none without a usable class name. -/
def component? (fact : FactRecord) : Option Json :=
  (className? deps fact).map (logicalIdentity fact.privatePayload)

/-- The pair a fact names, where both its names are usable. -/
def pair? (fact : FactRecord) : Option InspectionTarget :=
  (className? deps fact).bind fun className =>
    (usableField deps fact.privatePayload "classLoaderId").map (InspectionTarget.mk className)

/-- The digest the fact is grouped by. -/
def key? (fact : FactRecord) : Option String := (component? deps fact).map deps.digestObject

/-- The components that may be looked at. -/
def allowed (facts : List FactRecord) (objectRefs : List String) : List FactRecord :=
  facts.filter fun fact => fact.namespace_ = .javaComponent ∧ fact.subjectRef ∈ objectRefs

/-- Among the facts, one names a loader for the logical component of this one. -/
def Covered (components : List FactRecord) (fact : FactRecord) : Prop :=
  ∃ component, component? deps fact = some component ∧ ∃ other ∈ components, ∃ component',
    component? deps other = some component' ∧ Same component component' ∧ (pair? deps other).isSome

/-- What a selection promises: no more than the maximum, every pair once and observed, and where it is not
    said to be incomplete, every component covered and every usable pair counted once. -/
structure Faithful (components : List FactRecord) (maximum : ℕ) (selected : List InspectionTarget × Bool) :
    Prop where
  bounded : selected.1.length ≤ maximum
  distinct : selected.1.Nodup
  observed : ∀ target ∈ selected.1, ∃ fact ∈ components, pair? deps fact = some target
  covered : selected.2 = false → ∀ fact ∈ components, Covered deps components fact
  included : selected.2 = false → ∀ fact ∈ components, ∀ target, pair? deps fact = some target →
    selected.1.count target = 1

/-- The text by which a pair is told apart. -/
def joined (target : InspectionTarget) : String := target.className ++ "\x00" ++ target.classLoaderId

def usablePairs (components : List FactRecord) : List InspectionTarget := components.filterMap (pair? deps)

/-- The pairs of the components fit, as far as their texts tell them apart. -/
def Fits (components : List FactRecord) (maximum : ℕ) : Prop :=
  (Js.distinct ((usablePairs deps components).map joined)).length ≤ maximum

/-- Every component has a usable class name, and one of its digest names a loader. -/
def Resolved (components : List FactRecord) : Prop :=
  ∀ fact ∈ components, ∃ key, key? deps fact = some key ∧
    ∃ other ∈ components, key? deps other = some key ∧ (pair? deps other).isSome

/-- No two pairs of the components are joined to one text. -/
def Unmixed (components : List FactRecord) : Prop :=
  ∀ target ∈ usablePairs deps components, ∀ other ∈ usablePairs deps components,
    joined target = joined other → target = other

end

variable {deps : Deps} {fact : FactRecord} {facts components : List FactRecord} {objectRefs : List String}
  {maximum : ℕ} {target : InspectionTarget}

theorem mem_usablePairs : target ∈ usablePairs deps components ↔
    ∃ fact ∈ components, pair? deps fact = some target := List.mem_filterMap

/-! ### The groups -/

theorem key?_isSome : (key? deps fact).isSome = (className? deps fact).isSome := by
  simp [key?, component?]

theorem key?_of_pair (h : pair? deps fact = some target) : ∃ key, key? deps fact = some key := by
  rw [pair?] at h
  obtain ⟨className, hname, -⟩ := Option.bind_eq_some_iff.1 h
  exact Option.isSome_iff_exists.1 (by rw [key?_isSome, hname]; rfl)

/-- What the loop has made of the components so far: a group for each digest with the pairs of its
    components, and the mark where a component has no usable class name. -/
structure Grouping (deps : Deps) (seen : List FactRecord) (grouped : List (String × TargetGroup) × Bool) :
    Prop where
  nodup : (grouped.1.map Prod.fst).Nodup
  nameless : grouped.2 = false ↔ ∀ fact ∈ seen, (key? deps fact).isSome
  held : ∀ key, (grouped.1.lookup key).isSome ↔ ∃ fact ∈ seen, key? deps fact = some key
  pairs : ∀ key group, grouped.1.lookup key = some group → ∀ target,
    target ∈ group.usable ↔ ∃ fact ∈ seen, key? deps fact = some key ∧ pair? deps fact = some target

/-- One component: it marks the result, or it joins the group of its digest with its pair, if it has one. -/
theorem addComponent_cases (deps : Deps) (grouped : List (String × TargetGroup) × Bool) (fact : FactRecord) :
    (key? deps fact = none ∧ pair? deps fact = none ∧ addComponent deps grouped fact = (grouped.1, true)) ∨
    ∃ key update, key? deps fact = some key ∧
      addComponent deps grouped fact = (upsert key update grouped.1, grouped.2) ∧
      ∀ group, (update group).usable = (group.getD ⟨[], false⟩).usable ++ (pair? deps fact).toList := by
  rw [addComponent, key?, component?, pair?, className?]
  cases usableField deps fact.privatePayload "className" with
  | none => exact Or.inl ⟨rfl, rfl, rfl⟩
  | some className =>
    refine Or.inr ⟨_, _, rfl, rfl, fun group => ?_⟩
    cases usableField deps fact.privatePayload "classLoaderId" with
    | none => exact (List.append_nil _).symm
    | some classLoaderId => rfl

theorem Grouping.step {seen : List FactRecord} {grouped : List (String × TargetGroup) × Bool}
    (h : Grouping deps seen grouped) (fact : FactRecord) :
    Grouping deps (seen ++ [fact]) (addComponent deps grouped fact) := by
  rcases addComponent_cases deps grouped fact with ⟨hkey, hpair, heq⟩ | ⟨key, update, hkey, heq, hupdate⟩
  · rw [heq]
    refine ⟨h.nodup, ?_, fun k => ?_, fun k group hgroup target => ?_⟩
    · simp [hkey]
    · simp [h.held, hkey]
    · rw [h.pairs k group hgroup]
      simp [hkey]
  · rw [heq]
    refine ⟨nodup_keys_upsert h.nodup, ?_, fun k => ?_, fun k group hgroup target => ?_⟩
    · rw [h.nameless, List.forall_mem_append, List.forall_mem_singleton, hkey]
      exact ⟨fun hseen => ⟨hseen, rfl⟩, And.left⟩
    · rw [lookup_upsert]
      by_cases hk : k = key
      · simp [hk, hkey]
      · simp [hk, h.held, hkey, Ne.symm hk]
    · rw [lookup_upsert] at hgroup
      by_cases hk : k = key
      · rw [if_pos hk] at hgroup
        rw [← Option.some.inj hgroup, hupdate, List.mem_append]
        have hold : target ∈ ((grouped.1.lookup key).getD ⟨[], false⟩).usable ↔
            ∃ fact ∈ seen, key? deps fact = some k ∧ pair? deps fact = some target := by
          subst hk
          cases hlookup : grouped.1.lookup k with
          | none =>
            have hnone : ∀ fact ∈ seen, key? deps fact ≠ some k := fun f hf hfk => by
              have := (h.held k).2 ⟨f, hf, hfk⟩
              rw [hlookup] at this
              cases this
            constructor
            · intro hmem
              cases hmem
            · rintro ⟨f, hf, hfk, -⟩
              exact absurd hfk (hnone f hf)
          | some group => exact h.pairs k group hlookup target
        rw [hold]
        simp [hkey, hk, or_and_right, exists_or]
      · rw [if_neg hk] at hgroup
        rw [h.pairs k group hgroup]
        simp [hkey, Ne.symm hk]

theorem grouping_foldl : ∀ (components seen : List FactRecord) {grouped : List (String × TargetGroup) × Bool},
    Grouping deps seen grouped →
      Grouping deps (seen ++ components) (components.foldl (addComponent deps) grouped)
  | [], seen, _, h => by rwa [List.append_nil]
  | fact :: components, seen, _, h => by
      have := grouping_foldl components (seen ++ [fact]) (h.step fact)
      rwa [List.append_assoc] at this

theorem grouping (components : List FactRecord) :
    Grouping deps components (components.foldl (addComponent deps) ([], false)) :=
  grouping_foldl components [] ⟨List.nodup_nil, by simp, by simp, by simp⟩

/-! ### The selection -/

/-- The digests are those of the stable texts. -/
def stableDeps (deps : Deps) (numbers : NumberText) (hash : Hash) : Deps :=
  { deps with digestObject := StableJson.digestObject deps.collation numbers hash }

def groups (deps : Deps) (components : List FactRecord) : List (String × TargetGroup) × Bool :=
  components.foldl (addComponent deps) ([], false)

def allTargets (deps : Deps) (components : List FactRecord) : List InspectionTarget :=
  dedupTargets ((groups deps components).1.flatMap fun group => group.2.usable)

theorem mem_grouped : target ∈ (groups deps components).1.flatMap (fun group => group.2.usable) ↔
    target ∈ usablePairs deps components := by
  have h := @grouping deps components
  rw [List.mem_flatMap, mem_usablePairs]
  constructor
  · rintro ⟨⟨key, group⟩, hgroup, hmem⟩
    obtain ⟨fact, hfact, -, hpair⟩ := (h.pairs key group (lookup_of_mem h.nodup hgroup) target).1 hmem
    exact ⟨fact, hfact, hpair⟩
  · rintro ⟨fact, hfact, hpair⟩
    obtain ⟨key, hkey⟩ := key?_of_pair hpair
    obtain ⟨group, hgroup⟩ := Option.isSome_iff_exists.1 ((h.held key).2 ⟨fact, hfact, hkey⟩)
    exact ⟨(key, group), mem_of_lookup hgroup, (h.pairs key group hgroup target).2 ⟨fact, hfact, hkey, hpair⟩⟩

theorem allTargets_eq (deps : Deps) (components : List FactRecord) : allTargets deps components =
    (indexBy joined ((groups deps components).1.flatMap fun group => group.2.usable)).map Prod.snd := rfl

theorem nodup_allTargets : (allTargets deps components).Nodup := by
  rw [allTargets_eq]
  exact nodup_indexBy joined _

/-- What is selected is a pair of the components. -/
theorem observed_of_mem (h : target ∈ allTargets deps components) : target ∈ usablePairs deps components := by
  rw [allTargets_eq] at h
  obtain ⟨e, he, rfl⟩ := List.mem_map.1 h
  exact mem_grouped.1 (mem_indexBy he).1

/-- Of each pair, there is one of its text. -/
theorem exists_joined (h : target ∈ usablePairs deps components) :
    ∃ other ∈ allTargets deps components, joined other = joined target := by
  have hkey : joined target ∈ (indexBy joined
      ((groups deps components).1.flatMap fun group => group.2.usable)).map Prod.fst :=
    mem_keys_indexBy.2 (List.mem_map_of_mem (mem_grouped.2 h))
  obtain ⟨e, he, heq⟩ := List.mem_map.1 hkey
  refine ⟨e.2, ?_, (mem_indexBy he).2.trans heq⟩
  rw [allTargets_eq]
  exact List.mem_map_of_mem he

/-- Each text is there once. -/
theorem eq_of_joined {other : InspectionTarget} (h : target ∈ allTargets deps components)
    (hother : other ∈ allTargets deps components) (heq : joined target = joined other) : target = other := by
  rw [allTargets_eq] at h hother
  obtain ⟨e, he, rfl⟩ := List.mem_map.1 h
  obtain ⟨e', he', rfl⟩ := List.mem_map.1 hother
  rw [(mem_indexBy he).2, (mem_indexBy he').2] at heq
  have hnodup := nodup_keys_indexBy joined ((groups deps components).1.flatMap fun group => group.2.usable)
  exact congrArg Prod.snd (List.inj_on_of_nodup_map hnodup he he' heq)

/-- There are as many targets as texts. -/
theorem length_allTargets : (allTargets deps components).length =
    (Js.distinct ((usablePairs deps components).map joined)).length := by
  rw [allTargets_eq, List.length_map, ← List.length_map Prod.fst]
  refine ((List.perm_ext_iff_of_nodup (nodup_keys_indexBy joined _) (Js.nodup_distinct _)).2
    fun text => ?_).length_eq
  rw [mem_keys_indexBy, Js.mem_distinct, List.mem_map, List.mem_map]
  exact exists_congr fun target => and_congr_left fun _ => mem_grouped

/-- The selection, in terms of the groups. -/
theorem select_eq (deps : Deps) (facts : List FactRecord) (objectRefs : List String) (maximum : ℕ) :
    selectJavaClassInspectionTargets deps facts objectRefs maximum =
      ((allTargets deps (allowed facts objectRefs)).take maximum,
        (groups deps (allowed facts objectRefs)).2 ||
          (groups deps (allowed facts objectRefs)).1.any (fun group => group.2.usable.isEmpty) ||
          decide (maximum < (allTargets deps (allowed facts objectRefs)).length)) := rfl

/-- No component marks the result and no group is empty exactly when every component is resolved. -/
theorem resolved_iff : Resolved deps components ↔ (groups deps components).2 = false ∧
    (groups deps components).1.any (fun group => group.2.usable.isEmpty) = false := by
  have h := @grouping deps components
  constructor
  · intro hresolved
    refine ⟨h.nameless.2 fun fact hfact => ?_, List.any_eq_false.2 ?_⟩
    · obtain ⟨key, hkey, -⟩ := hresolved fact hfact
      rw [hkey]
      rfl
    · rintro ⟨key, group⟩ hgroup hempty
      have hlookup := lookup_of_mem h.nodup hgroup
      obtain ⟨fact, hfact, hkey⟩ := (h.held key).1 (by rw [hlookup]; rfl)
      obtain ⟨key', hkey', other, hother, hotherKey, hpair⟩ := hresolved fact hfact
      obtain rfl : key = key' := Option.some.inj (hkey.symm.trans hkey')
      obtain ⟨target, htarget⟩ := Option.isSome_iff_exists.1 hpair
      have hmem := (h.pairs key group hlookup target).2 ⟨other, hother, hotherKey, htarget⟩
      rw [List.isEmpty_iff.1 hempty] at hmem
      cases hmem
  · rintro ⟨hnamed, hfilled⟩ fact hfact
    obtain ⟨key, hkey⟩ := Option.isSome_iff_exists.1 (h.nameless.1 hnamed fact hfact)
    obtain ⟨group, hgroup⟩ := Option.isSome_iff_exists.1 ((h.held key).2 ⟨fact, hfact, hkey⟩)
    have hne : group.usable ≠ [] := fun hnil =>
      List.any_eq_false.1 hfilled (key, group) (mem_of_lookup hgroup) (List.isEmpty_iff.2 hnil)
    obtain ⟨target, htarget⟩ := List.exists_mem_of_ne_nil _ hne
    obtain ⟨other, hother, hotherKey, hpair⟩ := (h.pairs key group hgroup target).1 htarget
    exact ⟨key, hkey, other, hother, hotherKey, by rw [hpair]; rfl⟩

theorem complete_iff : (selectJavaClassInspectionTargets deps facts objectRefs maximum).2 = false ↔
    Resolved deps (allowed facts objectRefs) ∧ Fits deps (allowed facts objectRefs) maximum := by
  rw [select_eq, resolved_iff, Fits, ← length_allTargets]
  simp only [Bool.or_eq_false_iff, decide_eq_false_iff_not, not_lt]

/-- Components with one digest are one logical component. -/
theorem Resolved.covered {numbers : NumberText} {hash : Hash}
    (h : Resolved (stableDeps deps numbers hash) components) (hfact : fact ∈ components) :
    Covered (stableDeps deps numbers hash) components fact := by
  obtain ⟨key, hkey, other, hother, hotherKey, hpair⟩ := h fact hfact
  obtain ⟨component, hcomponent, hdigest⟩ := Option.map_eq_some_iff.1 hkey
  obtain ⟨component', hcomponent', hdigest'⟩ := Option.map_eq_some_iff.1 hotherKey
  exact ⟨component, hcomponent, other, hother, component', hcomponent',
    same_of_stableJson (hash.injective (hdigest.trans hdigest'.symm)), hpair⟩

/-- Where nothing is missing and nothing cut off, the pairs are told apart by their texts. -/
theorem Faithful.unmixed (h : Faithful deps (allowed facts objectRefs) maximum
      (selectJavaClassInspectionTargets deps facts objectRefs maximum))
    (hresolved : Resolved deps (allowed facts objectRefs))
    (hfits : Fits deps (allowed facts objectRefs) maximum) : Unmixed deps (allowed facts objectRefs) := by
  have hmem : ∀ target ∈ usablePairs deps (allowed facts objectRefs),
      target ∈ allTargets deps (allowed facts objectRefs) := fun target htarget => by
    obtain ⟨fact, hfact, hpair⟩ := mem_usablePairs.1 htarget
    have hcount := h.included (complete_iff.2 ⟨hresolved, hfits⟩) fact hfact target hpair
    rw [select_eq, List.take_of_length_le (length_allTargets.trans_le hfits)] at hcount
    exact List.count_pos_iff.1 (by rw [hcount]; exact Nat.one_pos)
  exact fun target htarget other hother => eq_of_joined (hmem target htarget) (hmem other hother)

/-- The selection is as promised exactly when, where it is not incomplete, no two of its pairs are joined to
    one text. -/
theorem select_faithful_iff (deps : Deps) (numbers : NumberText) (hash : Hash) (facts : List FactRecord)
    (objectRefs : List String) (maximum : ℕ) :
    Faithful (stableDeps deps numbers hash) (allowed facts objectRefs) maximum
        (selectJavaClassInspectionTargets (stableDeps deps numbers hash) facts objectRefs maximum) ↔
      (Resolved (stableDeps deps numbers hash) (allowed facts objectRefs) →
        Fits (stableDeps deps numbers hash) (allowed facts objectRefs) maximum →
          Unmixed (stableDeps deps numbers hash) (allowed facts objectRefs)) := by
  constructor
  · intro h hresolved hfits
    exact h.unmixed hresolved hfits
  · intro h
    have hsub : ((selectJavaClassInspectionTargets (stableDeps deps numbers hash) facts objectRefs
        maximum).1).Sublist (allTargets (stableDeps deps numbers hash) (allowed facts objectRefs)) := by
      rw [select_eq]
      exact List.take_sublist _ _
    have hnodup := nodup_allTargets.sublist hsub
    refine ⟨?_, hnodup, fun target htarget => ?_, fun hcomplete fact hfact => ?_,
      fun hcomplete fact hfact target hpair => ?_⟩
    · rw [select_eq]
      exact List.length_take_le _ _
    · exact mem_usablePairs.1 (observed_of_mem (hsub.subset htarget))
    · exact (complete_iff.1 hcomplete).1.covered hfact
    · obtain ⟨hresolved, hfits⟩ := complete_iff.1 hcomplete
      have htarget := mem_usablePairs.2 ⟨fact, hfact, hpair⟩
      obtain ⟨other, hother, heq⟩ := exists_joined htarget
      have hsame := h hresolved hfits other (observed_of_mem hother) target htarget heq
      refine List.count_eq_one_of_mem hnodup ?_
      rw [select_eq, List.take_of_length_le (length_allTargets.trans_le hfits), ← hsame]
      exact hother

/-! ### A NUL in a name -/

/-- A component with a class name and a loader. -/
def component (factSeq : ℕ) (subjectRef className classLoaderId : String) : FactRecord :=
  { sampleFact factSeq .javaComponent subjectRef with
    privatePayload := [("className", .str className), ("classLoaderId", .str classLoaderId),
      ("context", .str "/lab"), ("componentKind", .str "filter"), ("name", .str "Filter")] }

/-- Two classes: the NUL ends the name of the one and begins the loader of the other. -/
def nulComponents : List FactRecord :=
  [component 1 "OBJ-A" "lab.A\x00lab.B" "loader", component 2 "OBJ-B" "lab.A" "lab.B\x00loader"]

def plainDeps : Deps where
  checks := []
  capabilities :=
    { namespaces := [], matchers := [], probes := ["jvm.class.inspect"], verbs := ["probe"]
      limits := ⟨500, 1572864, 65536, 104857600⟩, protocolAnomalies := [] }
  tools := [.probe]
  texts := ⟨Js.plainCoercions, id⟩
  collation := Js.codeUnitCollation
  digestObject _ := ""

def plainHash : Hash := ⟨String.ofList, fun _ _ h => String.ofList_injective h⟩

/-- The selection says that it is complete and has one of the two classes. -/
theorem nul_class_dropped : ¬ Faithful (stableDeps plainDeps tallyNumbers plainHash)
    (allowed nulComponents ["OBJ-A", "OBJ-B"]) 20
    (selectJavaClassInspectionTargets (stableDeps plainDeps tallyNumbers plainHash) nulComponents
      ["OBJ-A", "OBJ-B"] 20) := by
  intro h
  have hall : allowed nulComponents ["OBJ-A", "OBJ-B"] = nulComponents := by decide
  have hpairs : usablePairs (stableDeps plainDeps tallyNumbers plainHash) nulComponents =
      [⟨"lab.A\x00lab.B", "loader"⟩, ⟨"lab.A", "lab.B\x00loader"⟩] := by decide
  have hresolved : Resolved (stableDeps plainDeps tallyNumbers plainHash) nulComponents := by
    have hpair : ∀ fact ∈ nulComponents,
        (pair? (stableDeps plainDeps tallyNumbers plainHash) fact).isSome := by decide
    intro fact hfact
    obtain ⟨target, htarget⟩ := Option.isSome_iff_exists.1 (hpair fact hfact)
    obtain ⟨key, hkey⟩ := key?_of_pair htarget
    exact ⟨key, hkey, fact, hfact, hkey, hpair fact hfact⟩
  have hfits : Fits (stableDeps plainDeps tallyNumbers plainHash) nulComponents 20 := by
    rw [Fits, hpairs]
    decide
  have hunmixed := h.unmixed (hall ▸ hresolved) (hall ▸ hfits)
  rw [hall, Unmixed, hpairs] at hunmixed
  exact absurd (hunmixed _ List.mem_cons_self _ (List.mem_cons_of_mem _ List.mem_cons_self) (by decide))
    (by decide)

end HuntWarden.JavaClassIdentity
