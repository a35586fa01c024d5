import HuntWarden.Config.LoadConfig

/-! The normal form of a configuration. What a first normalisation has put out is migrated, passes the checks and has
    its paths resolved, so that a second one can only change the endpoint of a custom model. -/

namespace HuntWarden.LoadConfig

open Schema

variable {r : Runtime} {yaml : Yaml} {input config v w value : Json} {name key sourcePath : String}
  {path rest : List String}

/-! ### What the checks say -/

def outsideProperties : List (String × Bool × Schema) := configProperties.filter (·.1 ≠ "model")

/-- Outside the model every property fits, and a name that the schema does not know is taken for one of the model. -/
structure SoundOutside (r : Runtime) (v : Json) : Prop where
  fits : r.typeBox.check (.record false outsideProperties) v = true
  unknown : ∀ name, (v.get? name).isSome = true → name ∉ configProperties.map Prod.fst →
    isModelPath ("/" ++ name) = true

def modelSchema : Schema := .union [BuiltinModelSchema, CustomModelSchema]

theorem mem_model : ("model", true, modelSchema) ∈ configProperties := by
  simp [configProperties, modelSchema, needs]

theorem nodup_configProperties : (configProperties.map Prod.fst).Nodup := by
  simp [configProperties, needs]

theorem mem_schemaIssues {schema : Schema} {issue : ConfigIssue} {start : String} :
    issue ∈ schemaIssues r schema v start ↔ ∃ error ∈ r.typeBox.errors schema v, issue ∈ issuesOf start error := by
  rw [schemaIssues, Js.mem_distinct, List.mem_flatMap]

theorem issuesOf_ne_nil (start : String) (error : ValueError) : issuesOf start error ≠ [] := by
  rw [issuesOf]
  split
  · next hnames => exact fun hnil => hnames (List.map_eq_nil_iff.1 hnil)
  · exact List.cons_ne_nil _ _

theorem schemaIssues_eq_nil {schema : Schema} {start : String} :
    schemaIssues r schema v start = [] ↔ r.typeBox.check schema v = true := by
  rw [← r.lawful.errors_nil, List.eq_nil_iff_forall_not_mem, List.eq_nil_iff_forall_not_mem]
  constructor
  · intro h error herror
    obtain ⟨issue, hissue⟩ := List.exists_mem_of_ne_nil _ (issuesOf_ne_nil start error)
    exact h issue (mem_schemaIssues.2 ⟨error, herror, hissue⟩)
  · intro h issue hissue
    obtain ⟨error, herror, -⟩ := mem_schemaIssues.1 hissue
    exact h error herror

theorem not_isModelPath_of_head {path : String} (h : path.toList[1]? ≠ some 'm') : isModelPath path = false := by
  rw [isModelPath, Bool.or_eq_false_iff]
  constructor
  · refine decide_eq_false ?_
    rintro rfl
    exact h rfl
  · refine Bool.eq_false_iff.2 fun hprefix => ?_
    obtain ⟨rest, hrest⟩ := List.isPrefixOf_iff_prefix.1 hprefix
    rw [← hrest] at h
    exact h rfl

/-- What is reported at a property or below is no issue of the model. -/
theorem not_isModelPath_below {error : ValueError} {issue : ConfigIssue} {ch : Char} {chars : List Char}
    (hname : name.toList = ch :: chars) (hhead : ch ≠ 'm') (h : TypeBox.Below ("/" ++ name) error.instancePath)
    (hissue : issue ∈ issuesOf "" error) : isModelPath issue.path = false := by
  have hpath : ∃ rest, error.instancePath.toList = '/' :: ch :: rest := by
    rcases h with h | ⟨rest, h⟩
    · exact ⟨chars, by simp [h, hname]⟩
    · exact ⟨chars ++ '/' :: rest.toList, by simp [h, hname]⟩
  obtain ⟨rest, hpath⟩ := hpath
  have hstarts : ∀ more, (orRoot ("" ++ error.instancePath ++ more)).toList[1]? = some ch := by
    intro more
    have hne : "" ++ error.instancePath ++ more ≠ "" := by
      intro hempty
      have hchars := congrArg String.toList hempty
      simp [hpath] at hchars
    rw [orRoot, if_neg hne]
    simp [hpath]
  refine not_isModelPath_of_head ?_
  have hhead' : some ch ≠ some 'm' := fun heq => hhead (Option.some.inj heq)
  rw [issuesOf] at hissue
  split at hissue
  · obtain ⟨other, -, rfl⟩ := List.mem_map.1 hissue
    have hassoc : "" ++ error.instancePath ++ "/" ++ other = "" ++ error.instancePath ++ ("/" ++ other) :=
      String.append_assoc
    rw [hassoc, hstarts]
    exact hhead'
  · cases List.mem_singleton.1 hissue
    have hsame := hstarts ""
    rw [String.append_empty] at hsame
    rw [hsame]
    exact hhead'

/-- The names of the schema but for the model do not begin as it does, and are written in a path as they are. -/
theorem configProperties_names : ∀ property ∈ configProperties,
    (property.1 = "model" ∨ ∃ ch chars, property.1.toList = ch :: chars ∧ ch ≠ 'm') ∧
      ∀ ch ∈ property.1.toList, ch ≠ '/' ∧ ch ≠ '~' := by
  have hnames : (configProperties.map Prod.fst).all (fun name =>
      (name = "model" || name.toList.head?.any (· ≠ 'm')) && name.toList.all fun ch => ch ≠ '/' && ch ≠ '~') := by
    simp only [configProperties, needs, List.map_cons, List.map_nil]
    decide +kernel
  intro property hproperty
  have hname := List.all_eq_true.1 hnames _ (List.mem_map_of_mem hproperty)
  simp only [Bool.and_eq_true, Bool.or_eq_true, decide_eq_true_eq, List.all_eq_true, Option.any_eq_true] at hname
  refine ⟨hname.1.imp_right ?_, hname.2⟩
  rintro ⟨ch, hch, hne⟩
  obtain ⟨chars, hchars⟩ := List.head?_eq_some_iff.1 hch
  exact ⟨ch, chars, hchars, hne⟩

theorem schema_of_model {property : String × Bool × Schema} (hproperty : property ∈ configProperties)
    (hname : property.1 = "model") : property.2.2 = modelSchema := by
  obtain ⟨name, required, schema⟩ := property
  cases hname
  exact schema_unique nodup_configProperties mem_model hproperty

/-- Where a property does not fit, although the model does, there is an issue outside the model. -/
theorem exists_issue_of_unfit {fields : List (String × Json)} {model : Json}
    (hmodel : fields.lookup "model" = some model) (hchecks : r.typeBox.check modelSchema model = true)
    (hunfit : ¬ r.typeBox.Fits configProperties fields) :
    ∃ issue ∈ schemaIssues r ConfigSchema (.obj fields) "", isModelPath issue.path = false := by
  obtain ⟨error, herror, hroot | ⟨property, hproperty, w, hw, hbad, hbelow⟩⟩ :=
    r.lawful.errors_unfit true configProperties fields (fun property h => (configProperties_names property h).2) hunfit
  · refine ⟨⟨"/", error.message⟩, mem_schemaIssues.2 ⟨error, herror, ?_⟩,
      not_isModelPath_of_head (by decide : "/".toList[1]? ≠ some 'm')⟩
    rw [issuesOf, additionalOf, if_neg hroot.2, if_neg (not_not_intro rfl), hroot.1]
    exact List.mem_singleton_self _
  · have hother : property.1 ≠ "model" := by
      intro hsame
      have hschema := schema_of_model hproperty hsame
      rw [hsame, hmodel] at hw
      cases hw
      rw [hschema, hchecks] at hbad
      cases hbad
    obtain ⟨ch, chars, hname, hhead⟩ := (configProperties_names property hproperty).1.resolve_left hother
    obtain ⟨issue, hissue⟩ := List.exists_mem_of_ne_nil _ (issuesOf_ne_nil "" error)
    exact ⟨issue, mem_schemaIssues.2 ⟨error, herror, hissue⟩, not_isModelPath_below hname hhead hbelow hissue⟩

/-- The properties fit when those outside the model and the model do. -/
theorem fits_iff {fields : List (String × Json)} {model : Json} (hmodel : fields.lookup "model" = some model)
    (hchecks : r.typeBox.check modelSchema model = true) : r.typeBox.Fits configProperties fields ↔
      r.typeBox.check (.record false outsideProperties) (.obj fields) = true := by
  rw [r.lawful.record]
  constructor
  · intro hfits
    exact ⟨fields, rfl, fun hstrict => (Bool.false_ne_true hstrict).elim,
      fun property hproperty => hfits property (List.mem_filter.1 hproperty).1⟩
  · rintro ⟨_, ⟨⟩, -, hfits⟩ property hproperty
    by_cases hsame : property.1 = "model"
    · rw [hsame, hmodel, Option.elim_some, schema_of_model hproperty hsame]
      exact hchecks
    · exact hfits property (List.mem_filter.2 ⟨hproperty, decide_eq_true hsame⟩)

/-- The issues of names that the schema does not know. -/
theorem mem_schemaIssues_additional {fields : List (String × Json)} (hfits : r.typeBox.Fits configProperties fields)
    {issue : ConfigIssue} : issue ∈ schemaIssues r ConfigSchema (.obj fields) "" ↔
      ∃ name ∈ additional configProperties fields, issue = ⟨"/" ++ name, "未知配置字段"⟩ := by
  rw [mem_schemaIssues]
  by_cases hknown : additional configProperties fields = []
  · have hchecks : r.typeBox.check ConfigSchema (.obj fields) = true :=
      (r.lawful.record true configProperties _).2 ⟨fields, rfl, fun _ => hknown, hfits⟩
    simp [(r.lawful.errors_nil _ _).2 hchecks, hknown]
  · obtain ⟨message, herrors⟩ := r.lawful.errors_fit configProperties fields hfits hknown
    have hroot : ∀ name : String, orRoot ("" ++ "" ++ "/" ++ name) = "/" ++ name := by
      intro name
      have hne : "/" ++ name ≠ "" := by
        intro hempty
        have hchars := congrArg String.toList hempty
        simp at hchars
      rw [orRoot, String.append_empty, String.empty_append, if_neg hne]
    have hnames : additionalOf ⟨"additionalProperties", "", additional configProperties fields, message⟩ =
        additional configProperties fields := if_pos rfl
    rw [ConfigSchema, strictObject, herrors]
    simp only [List.mem_singleton, exists_eq_left, issuesOf, hnames, ne_eq, hknown, not_false_eq_true, if_true,
      List.mem_map, hroot]
    exact exists_congr fun name => and_congr_right fun _ => eq_comm

theorem branchOf_eq_some {model : Json} {branch : Schema} (h : branchOf v = some (model, branch)) :
    v.get? "model" = some model ∧ (branch = BuiltinModelSchema ∨ branch = CustomModelSchema) := by
  rw [branchOf, Option.bind_eq_some_iff] at h
  obtain ⟨found, hfound, h⟩ := h
  split at h
  · split at h
    · cases h
      exact ⟨hfound, Or.inr rfl⟩
    · cases h
      exact ⟨hfound, Or.inl rfl⟩
    · cases h
      exact ⟨hfound, Or.inl rfl⟩
    · cases h
  · cases h

/-- The checks of an input that says which model it has. -/
theorem issues_of_branch {model : Json} {branch : Schema} (hbranch : branchOf v = some (model, branch)) :
    getConfigIssues r v = [] ↔ SoundOutside r v ∧ r.typeBox.check branch model = true := by
  obtain ⟨hmodel, hkind⟩ := branchOf_eq_some hbranch
  obtain ⟨fields, rfl⟩ : ∃ fields, v = .obj fields := by
    cases v with
    | obj fields => exact ⟨fields, rfl⟩
    | _ => cases hmodel
  rw [getConfigIssues, hbranch]
  dsimp only
  rw [List.append_eq_nil_iff, schemaIssues_eq_nil, List.filter_eq_nil_iff]
  refine and_congr_left fun hchecks => ?_
  have hunion : r.typeBox.check modelSchema model = true := by
    refine (r.lawful.union _ _).2 ⟨branch, ?_, hchecks⟩
    rcases hkind with rfl | rfl <;> simp
  have hnames : ∀ name, name ∈ additional configProperties fields ↔
      ((Json.obj fields).get? name).isSome = true ∧ name ∉ configProperties.map Prod.fst := fun _ => mem_additional
  constructor
  · intro h
    have hfits : r.typeBox.Fits configProperties fields := by
      by_contra hunfit
      obtain ⟨issue, hissue, hpath⟩ := exists_issue_of_unfit hmodel hunion hunfit
      exact h issue hissue (by rw [hpath]; rfl)
    refine ⟨(fits_iff hmodel hunion).1 hfits, fun name hthere hnot => ?_⟩
    have hissue := h _ ((mem_schemaIssues_additional hfits).2 ⟨name, (hnames name).2 ⟨hthere, hnot⟩, rfl⟩)
    rwa [Bool.not_eq_true', Bool.not_eq_false] at hissue
  · rintro ⟨houtside, hunknown⟩ issue hissue
    obtain ⟨name, hname, rfl⟩ := (mem_schemaIssues_additional ((fits_iff hmodel hunion).2 houtside)).1 hissue
    obtain ⟨hthere, hnot⟩ := (hnames name).1 hname
    rw [hunknown name hthere hnot]
    exact Bool.false_ne_true

theorem issues_of_no_branch (hbranch : branchOf v = none) :
    getConfigIssues r v = [] ↔ r.typeBox.check ConfigSchema v = true := by
  rw [getConfigIssues, hbranch]
  exact schemaIssues_eq_nil

theorem soundOutside_of_issues (h : getConfigIssues r v = []) : SoundOutside r v := by
  cases hbranch : branchOf v with
  | some taken => exact ((issues_of_branch hbranch).1 h).1
  | none =>
    rw [issues_of_no_branch hbranch] at h
    obtain ⟨fields, rfl, hstrict, hfits⟩ := (r.lawful.record true configProperties v).1 h
    refine ⟨(r.lawful.record _ _ _).2 ⟨fields, rfl, fun hloose => (Bool.false_ne_true hloose).elim, ?_⟩,
      fun name hthere hnot => ?_⟩
    · exact fun property hproperty => hfits property (List.mem_filter.1 hproperty).1
    · have hname : name ∈ additional configProperties fields := mem_additional.2 ⟨hthere, hnot⟩
      rw [hstrict rfl] at hname
      cases hname

theorem SoundOutside.exists_get? (h : SoundOutside r v) (name : String) (schema : Schema)
    (hmem : (name, true, schema) ∈ outsideProperties) : ∃ w, v.get? name = some w ∧ r.typeBox.check schema w = true :=
  Schema.exists_get? r.lawful h.fits hmem

theorem SoundOutside.get?_eq_none (h : SoundOutside r v) (hnot : name ∉ configProperties.map Prod.fst)
    (hpath : isModelPath ("/" ++ name) = false) : v.get? name = none := by
  by_contra hthere
  rw [h.unknown name (Option.isSome_iff_ne_none.2 hthere) hnot] at hpath
  cases hpath

theorem SoundOutside.isRecord (h : SoundOutside r v) : v.isRecord = true := isRecord_of_check r.lawful h.fits

/-! ### The migration changes nothing any more -/

theorem not_old_renamePrompt : isOldPrompt ((renamePrompt v).get? "promptVersion") = false := by
  rw [renamePrompt]
  split
  · next hold =>
    cases v with
    | obj fields =>
      rw [Json.get?_set rfl, if_pos rfl]
      decide
    | _ => cases hold
  · next hold => exact Bool.eq_false_iff.2 hold

theorem renamePrompt_eq_self (h : isOldPrompt (v.get? "promptVersion") = false) : renamePrompt v = v := by
  rw [renamePrompt, h, if_neg Bool.false_ne_true]

/-- A migrated agent names no old prompt. -/
theorem not_old_migrated (hrecord : input.isRecord = true)
    (h : (withIncrementalDefaults input).get? "agent" = some w) : isOldPrompt (w.get? "promptVersion") = false := by
  rw [withIncrementalDefaults, if_pos hrecord, Json.get?_onRecord_of_ne (by decide),
    Json.get?_setDefault_of_ne (by decide), Json.get?_without (by decide), Json.get?_onRecord_of_ne (by decide)] at h
  cases hagent : ((toVersion2 input).onRecord "protocolV2"
      (·.setDefault "externalIntelBudget" externalIntelDefault)).get? "agent" with
  | none =>
    rw [Json.onRecord, hagent] at h
    rw [hagent] at h
    cases h
  | some agent =>
    cases hagentRecord : agent.isRecord with
    | true =>
      rw [Json.get?_onRecord hagent hagentRecord] at h
      cases h
      exact not_old_renamePrompt
    | false =>
      rw [Json.onRecord, hagent] at h
      dsimp only at h
      rw [hagentRecord, if_neg Bool.false_ne_true, hagent] at h
      cases h
      cases w with
      | obj fields => cases hagentRecord
      | _ => rfl

theorem without_eq_self_of_check {keys : List String} {properties : List (String × Bool × Schema)}
    (h : r.typeBox.check (strictObject properties) v = true) (hkeys : ∀ key ∈ keys, key ∉ properties.map Prod.fst) :
    v.without keys = v :=
  Json.without_eq_self fun key hkey => get?_eq_none r.lawful h (hkeys key hkey)

theorem setDefault_eq_self_of_check {properties : List (String × Bool × Schema)}
    (h : r.typeBox.check (strictObject properties) v = true) (schema : Schema)
    (hmem : (name, true, schema) ∈ properties) : v.setDefault name value = v := by
  obtain ⟨w, hw, _⟩ := exists_get? r.lawful h hmem
  exact Json.setDefault_eq_self (by rw [hw]; rfl)

theorem migrateAgent_eq_self (h : r.typeBox.check (strictObject agentProperties) v = true)
    (hprompt : isOldPrompt (v.get? "promptVersion") = false) : migrateAgent v = v := by
  rw [migrateAgent, without_eq_self_of_check h (by simp [RETIRED_AGENT_KEYS, agentProperties, needs]),
    setDefault_eq_self_of_check h (integer 1 20) (by simp [agentProperties, needs]),
    setDefault_eq_self_of_check h (integer 0 10) (by simp [agentProperties, needs]),
    setDefault_eq_self_of_check h (integer 30 3600) (by simp [agentProperties, needs]),
    renamePrompt_eq_self hprompt]

theorem toVersion2_eq_self (h : v.get? "schemaVersion" = some (.num 2)) : toVersion2 v = v := by
  rw [toVersion2, isLegacy, h, if_neg (by decide)]

/-- What the schema has nothing to object to outside the model is migrated already. -/
theorem withIncrementalDefaults_eq_self (h : SoundOutside r v)
    (hprompt : ∀ w, v.get? "agent" = some w → isOldPrompt (w.get? "promptVersion") = false) :
    withIncrementalDefaults v = v := by
  obtain ⟨version, hversion, hliteral⟩ := h.exists_get? "schemaVersion" (.literal (.num 2))
    (by simp [outsideProperties, configProperties, needs])
  obtain ⟨protocol, hprotocol, hprotocolCheck⟩ := h.exists_get? "protocolV2" (strictObject protocolV2Properties)
    (by simp [outsideProperties, configProperties, needs])
  obtain ⟨agent, hagent, hagentCheck⟩ := h.exists_get? "agent" (strictObject agentProperties)
    (by simp [outsideProperties, configProperties, needs])
  obtain ⟨webshell, hwebshell, hwebshellCheck⟩ := h.exists_get? "webshell" (strictObject webshellProperties)
    (by simp [outsideProperties, configProperties, needs])
  obtain ⟨intel, hintel, hintelCheck⟩ := h.exists_get? "threatIntel" (strictObject threatIntelProperties)
    (by simp [outsideProperties, configProperties, needs])
  rw [r.lawful.literal] at hliteral
  have hfixed : ∀ {name : String} {f : Json → Json} {w : Json}, v.get? name = some w → f w = w →
      v.onRecord name f = v := by
    intro name f w hw hf
    refine Json.onRecord_eq_self fun w' hw' _ => ?_
    rw [hw] at hw'
    cases hw'
    exact hf
  have htop : v.without RETIRED_TOP_LEVEL_KEYS = v := by
    refine Json.without_eq_self fun key hkey => ?_
    simp only [RETIRED_TOP_LEVEL_KEYS, List.mem_cons, List.not_mem_nil, or_false] at hkey
    rcases hkey with rfl | rfl | rfl | rfl <;>
      exact h.get?_eq_none (by simp [configProperties, needs]) (not_isModelPath_of_head (by decide))
  have hbudget : v.onRecord "protocolV2" (·.setDefault "externalIntelBudget" externalIntelDefault) = v :=
    hfixed hprotocol (setDefault_eq_self_of_check hprotocolCheck externalIntelBudgetSchema
      (by simp [protocolV2Properties, needs]))
  have hagentFixed : v.onRecord "agent" migrateAgent = v :=
    hfixed hagent (migrateAgent_eq_self hagentCheck (hprompt agent hagent))
  have hwebshellFixed : v.onRecord "webshell" (·.without RETIRED_WEBSHELL_KEYS) = v :=
    hfixed hwebshell (without_eq_self_of_check hwebshellCheck
      (by simp [RETIRED_WEBSHELL_KEYS, webshellProperties, needs]))
  have hintelFixed : v.onRecord "threatIntel" (·.without RETIRED_THREAT_INTEL_KEYS) = v :=
    hfixed hintel (without_eq_self_of_check hintelCheck
      (by simp [RETIRED_THREAT_INTEL_KEYS, threatIntelProperties, needs]))
  rw [withIncrementalDefaults, if_pos h.isRecord, toVersion2_eq_self (hliteral ▸ hversion), hbudget, hagentFixed,
    hwebshellFixed, htop, Json.setDefault_eq_self (by rw [hintel]; rfl), hintelFixed]

/-! ### The paths of a configuration -/

theorem branchOf_setIn {outer : String} (h : outer ≠ "model") : branchOf (v.setIn outer name value) = branchOf v := by
  rw [branchOf, branchOf, Json.get?_setIn_of_ne (Ne.symm h)]

theorem nodup_outsideProperties : (outsideProperties.map Prod.fst).Nodup := by
  simp [outsideProperties, configProperties, needs]

/-- A value that checks keeps the rest sound. -/
theorem SoundOutside.setIn {inner : List (String × Bool × Schema)} {schema : Schema} {outer : String}
    (h : SoundOutside r v) (houter : (outer, true, strictObject inner) ∈ outsideProperties)
    (hnodup : (inner.map Prod.fst).Nodup) (hname : (name, true, schema) ∈ inner)
    (hvalue : r.typeBox.check schema value = true) : SoundOutside r (v.setIn outer name value) := by
  refine ⟨check_setIn r.lawful h.fits nodup_outsideProperties houter hnodup hname hvalue, fun key hthere hnot => ?_⟩
  have hother : key ≠ outer := by
    rintro rfl
    exact hnot (List.mem_map_of_mem (List.mem_filter.1 houter).1)
  rw [Json.get?_setIn_of_ne hother] at hthere
  exact h.unknown key hthere hnot

theorem resolveConfigPath_idem (configDir value : String) :
    resolveConfigPath r configDir (resolveConfigPath r configDir value) = resolveConfigPath r configDir value := by
  have habsolute : PosixPath.isAbsolute (resolveConfigPath r configDir value) = true := by
    rw [resolveConfigPath]
    split <;> exact PosixPath.isAbsolute_resolve
  rw [resolveConfigPath, if_pos habsolute, resolveConfigPath]
  split <;> exact PosixPath.resolve_resolve

theorem check_anyText {text : String} : r.typeBox.check anyText (.str text) = true :=
  (r.lawful.text _ _ _ _).2 ⟨text, rfl, Nat.zero_le _, fun _ hnone => (Option.not_mem_none _ hnone).elim, rfl⟩

theorem check_textFrom_resolved (configDir value : String) :
    r.typeBox.check (textFrom 1) (.str (resolveConfigPath r configDir value)) = true := by
  have hne : resolveConfigPath r configDir value ≠ "" := by
    rw [resolveConfigPath]
    split <;> exact PosixPath.resolve_ne_empty
  exact (r.lawful.text _ _ _ _).2
    ⟨_, rfl, r.lawful.textLength_pos _ hne, fun _ hnone => (Option.not_mem_none _ hnone).elim, rfl⟩

theorem mem_storage : ("storage", true, strictObject storageProperties) ∈ outsideProperties := by
  simp [outsideProperties, configProperties, needs]

theorem mem_executor : ("executor", true, strictObject executorProperties) ∈ outsideProperties := by
  simp [outsideProperties, configProperties, needs]

theorem mem_baseDir : ("baseDir", true, anyText) ∈ storageProperties := List.mem_cons_self

theorem mem_knownHostsPath : ("knownHostsPath", true, textFrom 1) ∈ executorProperties := by
  simp [executorProperties, needs]

theorem mem_privateKeyPath : ("privateKeyPath", true, textFrom 1) ∈ executorProperties := by
  simp [executorProperties, needs]

theorem nodup_storage : (storageProperties.map Prod.fst).Nodup := by simp [storageProperties, needs]

theorem nodup_executor : (executorProperties.map Prod.fst).Nodup := by simp [executorProperties, needs]

/-- The normalised paths check. -/
theorem soundOutside_resolvePaths (h : SoundOutside r v) : SoundOutside r (resolvePaths r sourcePath v) :=
  ((h.setIn mem_storage nodup_storage mem_baseDir check_anyText).setIn mem_executor nodup_executor mem_knownHostsPath
    (check_textFrom_resolved _ _)).setIn mem_executor nodup_executor mem_privateKeyPath (check_textFrom_resolved _ _)

theorem check_resolvePaths (h : r.typeBox.check ConfigSchema v = true) :
    r.typeBox.check ConfigSchema (resolvePaths r sourcePath v) = true := by
  have hall : ∀ property ∈ outsideProperties, property ∈ configProperties :=
    fun property hproperty => (List.mem_filter.1 hproperty).1
  have hpath : ∀ {w : Json} {name : String} (configDir : String), r.typeBox.check ConfigSchema w = true →
      (name, true, textFrom 1) ∈ executorProperties →
        r.typeBox.check ConfigSchema (resolveAt r configDir "executor" name w) = true :=
    fun configDir hw hname => check_setIn r.lawful hw nodup_configProperties (hall _ mem_executor) nodup_executor hname
      (check_textFrom_resolved configDir _)
  have hstorage : r.typeBox.check ConfigSchema (resolveAt r (configDirOf r sourcePath) "storage" "baseDir" v) = true :=
    check_setIn r.lawful h nodup_configProperties (hall _ mem_storage) nodup_storage mem_baseDir check_anyText
  exact hpath _ (hpath _ hstorage mem_knownHostsPath) mem_privateKeyPath

theorem branchOf_resolvePaths : branchOf (resolvePaths r sourcePath v) = branchOf v := by
  rw [resolvePaths, resolveAt, branchOf_setIn (by decide), resolveAt, branchOf_setIn (by decide), resolveAt,
    branchOf_setIn (by decide)]

theorem issues_resolvePaths (h : getConfigIssues r v = []) : getConfigIssues r (resolvePaths r sourcePath v) = [] := by
  have hsame : branchOf (resolvePaths r sourcePath v) = branchOf v := branchOf_resolvePaths
  cases hbranch : branchOf v with
  | none =>
    rw [issues_of_no_branch hbranch] at h
    exact (issues_of_no_branch (hsame.trans hbranch)).2 (check_resolvePaths h)
  | some taken =>
    obtain ⟨houtside, hmodel⟩ := (issues_of_branch hbranch).1 h
    exact (issues_of_branch (hsame.trans hbranch)).2 ⟨soundOutside_resolvePaths houtside, hmodel⟩

theorem get?_resolvePaths (hs : key ≠ "storage") (he : key ≠ "executor") :
    (resolvePaths r sourcePath v).get? key = v.get? key := by
  rw [resolvePaths, resolveAt, Json.get?_setIn_of_ne he, resolveAt, Json.get?_setIn_of_ne he, resolveAt,
    Json.get?_setIn_of_ne hs]

theorem exists_at? {inner : List (String × Bool × Schema)} {schema : Schema} {outer : String}
    (h : SoundOutside r v) (hmem : (outer, true, strictObject inner) ∈ outsideProperties)
    (hname : (name, true, schema) ∈ inner) : ∃ old, v.at? [outer, name] = some old := by
  obtain ⟨w, hw, hcheck⟩ := h.exists_get? outer _ hmem
  obtain ⟨old, hold, _⟩ := exists_get? r.lawful hcheck hname
  refine ⟨old, ?_⟩
  rw [Json.at?_cons, hw, Option.bind_some, Json.at?_cons, hold]
  rfl

theorem at?_resolveAt {outer : String} (configDir : String) (h : v.at? [outer, name] = some w) :
    ∃ text, (resolveAt r configDir outer name v).at? [outer, name] =
      some (.str (resolveConfigPath r configDir text)) := ⟨textAt v [outer, name], Json.at?_setIn h⟩

theorem resolveAt_eq_self {configDir outer text : String} (h : v.at? [outer, name] = some (.str text))
    (hresolved : resolveConfigPath r configDir text = text) : resolveAt r configDir outer name v = v := by
  have htext : textAt v [outer, name] = text := by
    rw [textAt, h]
    rfl
  rw [resolveAt, htext, hresolved]
  exact Json.setIn_eq_self h

/-- Normalised paths are their own normal form. -/
theorem resolvePaths_idem (h : SoundOutside r v) :
    resolvePaths r sourcePath (resolvePaths r sourcePath v) = resolvePaths r sourcePath v := by
  obtain ⟨base, hbase⟩ := exists_at? h mem_storage mem_baseDir
  obtain ⟨known, hknown⟩ := exists_at? h mem_executor mem_knownHostsPath
  obtain ⟨key, hkey⟩ := exists_at? h mem_executor mem_privateKeyPath
  have hbase' : (resolvePaths r sourcePath v).at? ["storage", "baseDir"] =
      some (.str (resolveConfigPath r (configDirOf r sourcePath) (textAt v ["storage", "baseDir"]))) := by
    rw [resolvePaths, resolveAt, Json.at?_setIn_of_ne (Or.inl (by decide)), resolveAt,
      Json.at?_setIn_of_ne (Or.inl (by decide)), resolveAt, Json.at?_setIn hbase]
  have hknown' : ∃ text, (resolvePaths r sourcePath v).at? ["executor", "knownHostsPath"] =
      some (.str (resolveConfigPath r (configDirOf r sourcePath) text)) := by
    have hbefore : (resolveAt r (configDirOf r sourcePath) "storage" "baseDir" v).at? ["executor", "knownHostsPath"] =
        some known := by
      rw [resolveAt, Json.at?_setIn_of_ne (Or.inl (by decide)), hknown]
    obtain ⟨text, htext⟩ := at?_resolveAt (r := r) (configDirOf r sourcePath) hbefore
    refine ⟨text, ?_⟩
    rw [resolvePaths, resolveAt, Json.at?_setIn_of_ne (Or.inr (by decide))]
    exact htext
  have hkey' : ∃ text, (resolvePaths r sourcePath v).at? ["executor", "privateKeyPath"] =
      some (.str (resolveConfigPath r (configDirOf r sourcePath) text)) := by
    have hbefore : (resolveAt r (configDirOf r sourcePath) "executor" "knownHostsPath"
        (resolveAt r (configDirOf r sourcePath) "storage" "baseDir" v)).at? ["executor", "privateKeyPath"] =
          some key := by
      rw [resolveAt, Json.at?_setIn_of_ne (Or.inr (by decide)), resolveAt,
        Json.at?_setIn_of_ne (Or.inl (by decide)), hkey]
    exact at?_resolveAt (configDirOf r sourcePath) hbefore
  obtain ⟨_, hknown'⟩ := hknown'
  obtain ⟨_, hkey'⟩ := hkey'
  rw [resolvePaths.eq_def r sourcePath (resolvePaths r sourcePath v),
    resolveAt_eq_self hbase' (resolveConfigPath_idem _ _), resolveAt_eq_self hknown' (resolveConfigPath_idem _ _),
    resolveAt_eq_self hkey' (resolveConfigPath_idem _ _)]

theorem at?_model_resolvePaths :
    (resolvePaths r sourcePath v).at? ("model" :: key :: rest) = v.at? ("model" :: key :: rest) := by
  rw [Json.at?_cons, Json.at?_cons, get?_resolvePaths (by decide) (by decide)]

/-! ### The endpoint -/

theorem endpointError_eq_none {url : Url} (h : endpointError v url = none) :
    url.search = "" ∧ url.hash = "" ∧ isWeb url = true := by
  rw [endpointError] at h
  split at h
  · cases h
  · next hplain =>
    simp only [not_or, not_not] at hplain
    refine ⟨hplain.2.2.1, hplain.2.2.2, ?_⟩
    split at h
    · cases h
    · next hweb =>
      rw [isWeb, Bool.or_eq_true, decide_eq_true_eq, decide_eq_true_eq]
      by_contra hnot
      rw [not_or] at hnot
      exact hweb ⟨hnot.1, fun hlocal => hnot.2 hlocal.1⟩

theorem endpointError_congr {url url' : Url} (hparts : url.SameParts url')
    (hsame : w.at? ["model", "authentication", "type"] = v.at? ["model", "authentication", "type"]) :
    endpointError w url' = endpointError v url := by
  rw [endpointError, endpointError, hparts.username, hparts.password, hparts.search, hparts.hash, hparts.protocol,
    hparts.hostname, hsame]

theorem stripSlash_of_getLast {text : String} (h : text.toList.getLast? ≠ some '/') : stripSlash text = text := by
  rw [stripSlash, if_neg h]

theorem stripSlash_append {text : String} {rest : List Char} (h : text.toList = rest ++ ['/']) :
    stripSlash text = String.ofList rest := by
  rw [stripSlash, h, if_pos List.getLast?_concat, List.dropLast_concat]

theorem slashes_suffix_iff {rest : List Char} : "//".toList <:+ rest ++ ['/'] ↔ rest.getLast? = some '/' := by
  rw [show "//".toList = ['/'] ++ ['/'] from rfl, List.suffix_concat_iff]
  constructor
  · rintro (h | ⟨before, hbefore, hsuffix⟩)
    · cases h
    · rw [← List.append_cancel_right hbefore] at hsuffix
      exact List.singleton_suffix_iff_getLast?_eq_some.1 hsuffix
  · exact fun h => Or.inr ⟨['/'], rfl, List.singleton_suffix_iff_getLast?_eq_some.2 h⟩

/-- The normalised endpoint is an endpoint again, with the same text if it did not end in two slashes. -/
theorem exists_stripped {text : String} {url : Url} (hurl : r.parseUrl text = some url)
    (hvalid : endpointError v url = none) : ∃ url', r.parseUrl (stripSlash url.href) = some url' ∧ url.SameParts url' ∧
      (stripSlash url'.href = stripSlash url.href ↔ ¬ "//".toList <:+ url.href.toList) := by
  obtain ⟨hsearch, hhash, hweb⟩ := endpointError_eq_none hvalid
  by_cases hslash : url.href.toList.getLast? = some '/'
  · obtain ⟨rest, hrest⟩ := List.getLast?_eq_some_iff.1 hslash
    obtain ⟨url', hurl', hparts, hhref⟩ := r.parseUrl_slash text url rest hurl hweb hsearch hhash hrest
    rw [stripSlash_append hrest, hrest, slashes_suffix_iff]
    refine ⟨url', hurl', hparts, ?_⟩
    rcases hhref with hhref | ⟨hend, hhref⟩
    · have htext : url'.href = String.ofList rest := by rw [← hhref, String.ofList_toList]
      by_cases hend : rest.getLast? = some '/'
      · obtain ⟨before, rfl⟩ := List.getLast?_eq_some_iff.1 hend
        refine iff_of_false (fun hsame => ?_) (not_not_intro hend)
        rw [stripSlash_append hhref] at hsame
        have hlength := congrArg (fun text => text.toList.length) hsame
        simp at hlength
      · refine iff_of_true ?_ hend
        rw [stripSlash_of_getLast (by rw [hhref]; exact hend), htext]
    · refine iff_of_true ?_ hend
      rw [hhref, stripSlash_append hrest]
  · rw [stripSlash_of_getLast hslash]
    refine ⟨url, r.parseUrl_href text url hurl, ⟨rfl, rfl, rfl, rfl, rfl, rfl⟩, ?_⟩
    refine iff_of_true (stripSlash_of_getLast hslash) fun hsuffix => hslash ?_
    obtain ⟨before, hbefore⟩ := hsuffix
    rw [← hbefore]
    exact List.getLast?_append_of_ne_nil _ (by decide)

/-- Whatever becomes of the model, the schema objects to nothing else. -/
theorem soundOutside_setEndpoint {text : String} (h : SoundOutside r v) : SoundOutside r (setEndpoint v text) := by
  have hother : ∀ {key : String}, key ≠ "model" → (setEndpoint v text).get? key = v.get? key :=
    fun hkey => Json.get?_setIn_of_ne hkey
  obtain ⟨fields, rfl, -, hfits⟩ := (r.lawful.record _ _ _).1 h.fits
  obtain ⟨fields', hset⟩ : ∃ fields', setEndpoint (.obj fields) text = .obj fields' := by
    have hrecord : (setEndpoint (.obj fields) text).isRecord = true := Json.isRecord_setIn
    cases hset : setEndpoint (.obj fields) text with
    | obj fields' => exact ⟨fields', rfl⟩
    | _ => rw [hset] at hrecord; cases hrecord
  refine ⟨(r.lawful.record _ _ _).2 ⟨fields', hset, fun hloose => (Bool.false_ne_true hloose).elim, ?_⟩, ?_⟩
  · intro property hproperty
    have hkey : fields'.lookup property.1 = fields.lookup property.1 := by
      have hget := hother (of_decide_eq_true (List.mem_filter.1 hproperty).2)
      rwa [hset] at hget
    rw [hkey]
    exact hfits property hproperty
  · intro name hthere hnot
    have hname : name ≠ "model" := by
      rintro rfl
      exact hnot (List.mem_map_of_mem mem_model)
    rw [hother hname] at hthere
    exact h.unknown name hthere hnot

theorem branchOf_custom {model : Json} (hmodel : v.get? "model" = some model) (hcustom : isCustom v = true) :
    model.isRecord = true ∧ branchOf v = some (model, CustomModelSchema) := by
  rw [isCustom, decide_eq_true_eq, Json.at?_cons, hmodel, Option.bind_some, Json.at?_cons, Option.bind_eq_some_iff]
    at hcustom
  obtain ⟨source, hsource, hcustom⟩ := hcustom
  cases hcustom
  have hrecord := Json.isRecord_of_get? hsource
  refine ⟨hrecord, ?_⟩
  rw [branchOf, hmodel, Option.bind_some, if_pos hrecord, hsource]
  rfl

theorem get?_setEndpoint {model : Json} {text : String} (hmodel : v.get? "model" = some model)
    (hrecord : model.isRecord = true) : (setEndpoint v text).get? "model" = some (model.set "baseUrl" (.str text)) :=
  Json.get?_onRecord hmodel hrecord

/-- The custom model with another endpoint checks when the endpoint is not too long. -/
theorem check_setEndpoint {model : Json} {text : String} (htext : text ≠ "")
    (h : r.typeBox.check CustomModelSchema model = true) :
    r.typeBox.check CustomModelSchema (model.set "baseUrl" (.str text)) = true ↔ r.typeBox.textLength text ≤ 2048 := by
  have hmem : ("baseUrl", true, textWithin 1 2048 fun _ => true) ∈ customModelProperties := by
    simp [customModelProperties, needs]
  have hnodup : (customModelProperties.map Prod.fst).Nodup := by
    simp [customModelProperties, needs, allows]
  have hlength : r.typeBox.check (textWithin 1 2048 fun _ => true) (.str text) = true ↔
      r.typeBox.textLength text ≤ 2048 := by
    rw [textWithin, r.lawful.text]
    have hpos := r.lawful.textLength_pos text htext
    simp [Nat.succ_le_iff, hpos]
  rw [← hlength]
  constructor
  · intro hnew
    refine check_of_get? r.lawful hnew hmem ?_
    rw [Json.get?_set (isRecord_of_check r.lawful h), if_pos rfl]
  · intro hnew
    refine check_set r.lawful h (List.mem_map_of_mem hmem) fun required schema hmem' => ?_
    rw [schema_unique hnodup hmem hmem']
    exact hnew

/-! ### Normalising again -/

/-- The endpoint of a custom model does not end in two slashes once it is parsed, and is not too long then. -/
def EndpointStable (r : Runtime) (input : Json) : Prop :=
  isCustom input = true → ∀ url, r.parseUrl (textAt input ["model", "baseUrl"]) = some url →
    ¬ "//".toList <:+ url.href.toList ∧ r.typeBox.textLength (stripSlash url.href) ≤ 2048

theorem at?_model_migrated :
    (withIncrementalDefaults input).at? ("model" :: key :: rest) = input.at? ("model" :: key :: rest) := by
  rw [withIncrementalDefaults]
  split
  · rw [Json.at?_cons, Json.get?_onRecord_of_ne (by decide), Json.get?_setDefault_of_ne (by decide),
      Json.get?_without (by decide), Json.get?_onRecord_of_ne (by decide), Json.get?_onRecord_of_ne (by decide),
      Json.get?_onRecord_of_ne (by decide), ← Json.at?_cons, toVersion2]
    split
    · rw [Json.at?_set_of_ne (by decide), Json.at?_set_of_ne (by decide)]
    · rfl
  · rfl

/-- A configuration that is migrated already is only checked and brought into form. -/
theorem normalizeConfig_of_sound (h : SoundOutside r v)
    (hprompt : ∀ w, v.get? "agent" = some w → isOldPrompt (w.get? "promptVersion") = false) :
    normalizeConfig r v sourcePath =
      if getConfigIssues r v ≠ [] then .error (.issues (getConfigIssues r v))
      else (validateCustomModelEndpoint r v).map (resolvePaths r sourcePath) := by
  rw [normalizeConfig, withIncrementalDefaults_eq_self h hprompt]

theorem map_eq_ok {e : Except ConfigError Json} {f : Json → Json} (h : e.map f = .ok config) :
    ∃ v, e = .ok v ∧ f v = config := by
  cases e with
  | error _ => cases h
  | ok v => exact ⟨v, rfl, by cases h; rfl⟩

theorem normalizeConfig_eq_ok (h : normalizeConfig r input sourcePath = .ok config) :
    getConfigIssues r (withIncrementalDefaults input) = [] ∧ ∃ checked,
      validateCustomModelEndpoint r (withIncrementalDefaults input) = .ok checked ∧
        resolvePaths r sourcePath checked = config := by
  rw [normalizeConfig] at h
  split at h
  · cases h
  · next hissues => exact ⟨not_not.1 hissues, map_eq_ok h⟩

theorem validate_eq_ok (h : validateCustomModelEndpoint r v = .ok w) :
    isCustom v = false ∧ w = v ∨ isCustom v = true ∧ ∃ url, r.parseUrl (textAt v ["model", "baseUrl"]) = some url ∧
      endpointError v url = none ∧ w = setEndpoint v (stripSlash url.href) := by
  rw [validateCustomModelEndpoint] at h
  split at h
  · next hcustom =>
    refine Or.inr ⟨hcustom, ?_⟩
    split at h
    · cases h
    · next url hurl =>
      split at h
      · cases h
      · next hvalid =>
        cases h
        exact ⟨url, hurl, hvalid, rfl⟩
  · next hcustom =>
    cases h
    exact Or.inl ⟨Bool.eq_false_iff.2 hcustom, rfl⟩

theorem isRecord_of_migrated (h : (withIncrementalDefaults input).isRecord = true) : input.isRecord = true := by
  rw [withIncrementalDefaults] at h
  split at h
  · assumption
  · exact h

theorem isCustom_congr (h : v.at? ["model", "source"] = w.at? ["model", "source"]) : isCustom v = isCustom w := by
  rw [isCustom, isCustom, h]

/-- What a second pass does with a configuration of a custom model whose endpoint was parsed to `url`: it parses what
    the first has left of it to `url'`. -/
structure SecondPass (r : Runtime) (sourcePath : String) (config : Json) (url url' : Url) : Prop where
  baseUrl : config.at? ["model", "baseUrl"] = some (.str (stripSlash url.href))
  slashes : stripSlash url'.href = stripSlash url.href ↔ ¬ "//".toList <:+ url.href.toList
  issues : getConfigIssues r config = [] ↔ r.typeBox.textLength (stripSlash url.href) ≤ 2048
  result : normalizeConfig r config sourcePath =
    if getConfigIssues r config ≠ [] then .error (.issues (getConfigIssues r config))
    else .ok (resolvePaths r sourcePath (setEndpoint config (stripSlash url'.href)))

theorem exists_secondPass {url : Url} (hissues : getConfigIssues r v = [])
    (hprompt : ∀ w, v.get? "agent" = some w → isOldPrompt (w.get? "promptVersion") = false)
    (hcustom : isCustom v = true) (hurl : r.parseUrl (textAt v ["model", "baseUrl"]) = some url)
    (hvalid : endpointError v url = none)
    (hconfig : config = resolvePaths r sourcePath (setEndpoint v (stripSlash url.href))) :
    ∃ url', SecondPass r sourcePath config url url' := by
  have hsound := soundOutside_of_issues hissues
  obtain ⟨url', hurl', hparts, hslash⟩ := exists_stripped hurl hvalid
  have hsoundSet : SoundOutside r (setEndpoint v (stripSlash url.href)) := soundOutside_setEndpoint hsound
  obtain ⟨model, hmodel⟩ : ∃ model, v.get? "model" = some model := by
    rw [isCustom, decide_eq_true_eq, Json.at?_cons, Option.bind_eq_some_iff] at hcustom
    exact ⟨_, hcustom.choose_spec.1⟩
  obtain ⟨hrecord, hbranch⟩ := branchOf_custom hmodel hcustom
  have hcheck : r.typeBox.check CustomModelSchema model = true := ((issues_of_branch hbranch).1 hissues).2
  have htext : stripSlash url.href ≠ "" := by
    intro hempty
    rw [hempty, r.parseUrl_empty] at hurl'
    cases hurl'
  -- what the second pass reads is what the first has left
  have hmodelPath : ∀ {key : String} {rest : List String}, key ≠ "baseUrl" →
      config.at? ("model" :: key :: rest) = v.at? ("model" :: key :: rest) := by
    intro key rest hkey
    rw [hconfig, at?_model_resolvePaths, setEndpoint, Json.at?_setIn_of_ne (Or.inr hkey)]
  have hbase : config.at? ["model", "baseUrl"] = some (.str (stripSlash url.href)) := by
    obtain ⟨old, hold, _⟩ := exists_get? r.lawful hcheck
      (show ("baseUrl", true, textWithin 1 2048 fun _ => true) ∈ customModelProperties by
        simp [customModelProperties, needs])
    have hbefore : v.at? ["model", "baseUrl"] = some old := by
      rw [Json.at?_cons, hmodel, Option.bind_some, Json.at?_cons, hold]
      rfl
    rw [hconfig, at?_model_resolvePaths]
    exact Json.at?_setIn hbefore
  have hcustom' : isCustom config = true := by rw [isCustom_congr (hmodelPath (by decide)), hcustom]
  have hbranch' : branchOf config =
      some (model.set "baseUrl" (.str (stripSlash url.href)), CustomModelSchema) := by
    refine (branchOf_custom ?_ hcustom').2
    rw [hconfig, get?_resolvePaths (by decide) (by decide), get?_setEndpoint hmodel hrecord]
  have hsound' : SoundOutside r config := by
    rw [hconfig]
    exact soundOutside_resolvePaths hsoundSet
  have hissues' : getConfigIssues r config = [] ↔ r.typeBox.textLength (stripSlash url.href) ≤ 2048 := by
    rw [issues_of_branch hbranch', ← check_setEndpoint htext hcheck]
    exact and_iff_right hsound'
  have hvalidate : validateCustomModelEndpoint r config = .ok (setEndpoint config (stripSlash url'.href)) := by
    have hread : textAt config ["model", "baseUrl"] = stripSlash url.href := by
      rw [textAt, hbase]
      rfl
    rw [validateCustomModelEndpoint, if_pos hcustom', hread, hurl']
    dsimp only
    rw [endpointError_congr hparts (hmodelPath (by decide)), hvalid]
  refine ⟨url', hbase, hslash, hissues', ?_⟩
  rw [normalizeConfig_of_sound hsound', hvalidate, Except.map]
  intro w hw
  rw [hconfig, get?_resolvePaths (by decide) (by decide), setEndpoint, Json.get?_setIn_of_ne (by decide)] at hw
  exact hprompt w hw

theorem SecondPass.again_iff {url url' : Url} (h : SecondPass r sourcePath config url url')
    (hpaths : resolvePaths r sourcePath config = config) : normalizeConfig r config sourcePath = .ok config ↔
      ¬ "//".toList <:+ url.href.toList ∧ r.typeBox.textLength (stripSlash url.href) ≤ 2048 := by
  rw [h.result]
  constructor
  · intro hagain
    split at hagain
    · cases hagain
    · next hnone =>
      refine ⟨h.slashes.1 ?_, h.issues.1 (not_not.1 hnone)⟩
      have hsame := congrArg (fun c => Json.at? c ["model", "baseUrl"]) (Except.ok.inj hagain)
      rw [at?_model_resolvePaths, setEndpoint, Json.at?_setIn h.baseUrl, h.baseUrl] at hsame
      exact Json.str.inj (Option.some.inj hsame)
  · rintro ⟨hend, hlength⟩
    rw [if_neg (not_not_intro (h.issues.2 hlength)), h.slashes.2 hend, setEndpoint,
      Json.setIn_eq_self h.baseUrl, hpaths]

theorem SecondPass.loads_iff {url url' : Url} (h : SecondPass r sourcePath config url url') :
    (∃ again, normalizeConfig r config sourcePath = .ok again) ↔
      r.typeBox.textLength (stripSlash url.href) ≤ 2048 := by
  rw [h.result, ← h.issues]
  split
  · next hsome => exact iff_of_false (fun ⟨_, hnot⟩ => by cases hnot) hsome
  · next hnone => exact iff_of_true ⟨_, rfl⟩ (not_not.1 hnone)

/-- Paths are resolved against the directory of the file only. -/
theorem normalizeConfig_congr {otherPath : String} (h : configDirOf r otherPath = configDirOf r sourcePath) :
    normalizeConfig r input otherPath = normalizeConfig r input sourcePath := by
  have hpaths : resolvePaths r otherPath = resolvePaths r sourcePath := by
    funext v
    rw [resolvePaths, resolvePaths, h]
  rw [normalizeConfig, normalizeConfig, hpaths]

/-- A normalised configuration is normalised to itself, unless it has a custom model. -/
theorem secondPass_cases (h : normalizeConfig r input sourcePath = .ok config) :
    isCustom input = false ∧ normalizeConfig r config sourcePath = .ok config ∨
      isCustom input = true ∧ resolvePaths r sourcePath config = config ∧
        ∃ url url', r.parseUrl (textAt input ["model", "baseUrl"]) = some url ∧
          SecondPass r sourcePath config url url' := by
  obtain ⟨hissues, checked, hchecked, hconfig⟩ := normalizeConfig_eq_ok h
  have hsound := soundOutside_of_issues hissues
  have hprompt : ∀ w, (withIncrementalDefaults input).get? "agent" = some w →
      isOldPrompt (w.get? "promptVersion") = false :=
    fun w hw => not_old_migrated (isRecord_of_migrated hsound.isRecord) hw
  have hinput : isCustom (withIncrementalDefaults input) = isCustom input := isCustom_congr at?_model_migrated
  have htextInput :
      textAt (withIncrementalDefaults input) ["model", "baseUrl"] = textAt input ["model", "baseUrl"] := by
    rw [textAt, textAt, at?_model_migrated]
  rcases validate_eq_ok hchecked with ⟨hcustom, rfl⟩ | ⟨hcustom, url, hurl, hvalid, rfl⟩
  · refine Or.inl ⟨hinput.symm.trans hcustom, ?_⟩
    have hplain : isCustom config = false := by rw [← hconfig, isCustom_congr at?_model_resolvePaths, hcustom]
    have hsound' : SoundOutside r config := by
      rw [← hconfig]
      exact soundOutside_resolvePaths hsound
    have hissues' : getConfigIssues r config = [] := by
      rw [← hconfig]
      exact issues_resolvePaths hissues
    rw [normalizeConfig_of_sound hsound', if_neg (not_not_intro hissues'), validateCustomModelEndpoint, hplain,
      if_neg Bool.false_ne_true, Except.map, ← hconfig, resolvePaths_idem hsound]
    intro w hw
    rw [← hconfig, get?_resolvePaths (by decide) (by decide)] at hw
    exact hprompt w hw
  · obtain ⟨url', hsecond⟩ := exists_secondPass hissues hprompt hcustom hurl hvalid hconfig.symm
    refine Or.inr ⟨hinput.symm.trans hcustom, ?_, url, url', htextInput ▸ hurl, hsecond⟩
    rw [← hconfig]
    exact resolvePaths_idem (soundOutside_setEndpoint hsound)

theorem normalizeConfig_again_iff (h : normalizeConfig r input sourcePath = .ok config) :
    normalizeConfig r config sourcePath = .ok config ↔ EndpointStable r input := by
  rcases secondPass_cases h with ⟨hplain, hagain⟩ | ⟨hcustom, hpaths, url, url', hurl, hsecond⟩
  · exact iff_of_true hagain fun hstated => (Bool.false_ne_true (hplain.symm.trans hstated)).elim
  · rw [hsecond.again_iff hpaths]
    constructor
    · intro hstable _ other hother
      cases hurl.symm.trans hother
      exact hstable
    · exact fun hstable => hstable hcustom url hurl

/-- The endpoint of a custom model is not too long once it is parsed. -/
def EndpointFits (r : Runtime) (input : Json) : Prop :=
  isCustom input = true → ∀ url, r.parseUrl (textAt input ["model", "baseUrl"]) = some url →
    r.typeBox.textLength (stripSlash url.href) ≤ 2048

/-- What was normalised can be normalised again exactly when its endpoint fits. -/
theorem normalizeConfig_loads_iff (h : normalizeConfig r input sourcePath = .ok config) :
    (∃ again, normalizeConfig r config sourcePath = .ok again) ↔ EndpointFits r input := by
  rcases secondPass_cases h with ⟨hplain, hagain⟩ | ⟨hcustom, -, url, url', hurl, hsecond⟩
  · exact iff_of_true ⟨_, hagain⟩ fun hstated => (Bool.false_ne_true (hplain.symm.trans hstated)).elim
  · rw [hsecond.loads_iff]
    constructor
    · intro hfits _ other hother
      cases hurl.symm.trans hother
      exact hfits
    · exact fun hfits => hfits hcustom url hurl

/-! ### The configuration of a profile -/

/-- Normalising the configuration again, and saving and loading it any number of times, leaves it as it is. -/
def Lasts (r : Runtime) (yaml : Yaml) (sourcePath : String) (config : Json) : Prop :=
  normalizeConfig r config sourcePath = .ok config ∧ ∀ n, rounds r yaml sourcePath n config = .ok config

theorem saveAndLoad_eq (hyaml : yaml.ReadsBack config) (h : normalizeConfig r config sourcePath = .ok config) :
    saveAndLoad r yaml sourcePath config = .ok config := by
  rw [saveAndLoad, h]
  change parseConfig r yaml (serializeConfig yaml config) sourcePath = .ok config
  rw [parseConfig, serializeConfig, hyaml]
  exact h

theorem rounds_eq (hyaml : yaml.ReadsBack config) (h : normalizeConfig r config sourcePath = .ok config) :
    ∀ n, rounds r yaml sourcePath n config = .ok config
  | 0 => rfl
  | n + 1 => by
    rw [rounds, saveAndLoad_eq hyaml h]
    exact rounds_eq hyaml h n

/-- A normalised configuration lasts, and its legacy input's settings survive, exactly when its custom endpoint is
    stable and a legacy input states no budgets and policies of the second version. -/
theorem normalizeConfig_stable_iff (r : Runtime) (yaml : Yaml) (input config : Json) (sourcePath : String)
    (h : normalizeConfig r input sourcePath = .ok config) (hyaml : yaml.ReadsBack config) :
    (Lasts r yaml sourcePath config ∧ (isLegacy input = true → Survives input)) ↔
      EndpointStable r input ∧ (isLegacy input = true → StatesNoProtocol input) := by
  have hrecord : input.isRecord = true :=
    isRecord_of_migrated (soundOutside_of_issues (normalizeConfig_eq_ok h).1).isRecord
  refine and_congr ?_ (forall_congr' fun hlegacy => survives_iff hrecord hlegacy)
  rw [← normalizeConfig_again_iff h]
  exact ⟨fun hlasts => hlasts.1, fun hagain => ⟨hagain, rounds_eq hyaml hagain⟩⟩

/-! ### Two endpoints -/

/-- The texts of a host with one path, with up to two slashes at its end. -/
def sampleParseUrl (text : String) : Option Url :=
  if text ∈ ["https://h/a//", "https://h/a/", "https://h/a"] then some ⟨"", "", "", "", "https:", "h", text⟩ else none

def sampleRuntime : Runtime where
  typeBox := TypeBox.plain String.length
  lawful := TypeBox.lawful_plain fun text h => Nat.pos_of_ne_zero fun hzero => h (String.length_eq_zero_iff.1 hzero)
  cwd := "/"
  parseUrl := sampleParseUrl
  parseUrl_empty := rfl
  parseUrl_href := by
    intro text url h
    rw [sampleParseUrl] at h
    split at h
    · next htext =>
      cases h
      rw [sampleParseUrl, if_pos htext]
    · cases h
  parseUrl_slash := by
    intro text url rest h _ _ _ hhref
    rw [sampleParseUrl] at h
    split at h
    · next htext =>
      cases h
      simp only [List.mem_cons, List.not_mem_nil, or_false] at htext
      have hrest : rest = text.toList.dropLast := by rw [hhref, List.dropLast_concat]
      rcases htext with rfl | rfl | rfl
      · exact ⟨⟨"", "", "", "", "https:", "h", "https://h/a/"⟩, by rw [hrest]; rfl, ⟨rfl, rfl, rfl, rfl, rfl, rfl⟩,
          Or.inl (by rw [hrest]; rfl)⟩
      · exact ⟨⟨"", "", "", "", "https:", "h", "https://h/a"⟩, by rw [hrest]; rfl, ⟨rfl, rfl, rfl, rfl, rfl, rfl⟩,
          Or.inl (by rw [hrest]; rfl)⟩
      · have hlast := congrArg List.getLast? hhref
        rw [List.getLast?_concat] at hlast
        exact absurd hlast (by decide)
    · cases h

/-- An input of the first version, but for its custom model. -/
def sampleFields (baseUrl baseDir known key : String) : List (String × Json) :=
  [("agent", .obj [("maxTurns", .num 40), ("contextRetainTurns", .num 3), ("providerMaxRetries", .num 2),
      ("providerTimeoutSeconds", .num 600), ("defaultMode", .str "SCAN"),
      ("promptVersion", .str "huntwarden-agent-v2")]),
    ("model", .obj [("source", .str "custom"), ("provider", .str "local"), ("model", .str "m"),
      ("thinkingLevel", .str "off"), ("protocol", .str "openai-completions"), ("baseUrl", .str baseUrl),
      ("authentication", .obj [("type", .str "api-key-env"), ("apiKeyEnv", .str "API_KEY")]),
      ("reasoning", .bool false), ("contextWindow", .num 65536), ("maxTokens", .num 4096)]),
    ("executor", .obj [("type", .str "ssh"), ("timeoutSeconds", .num 30), ("helperPath", .str "/usr/local/bin/helper"),
      ("knownHostsPath", .str known), ("privateKeyPath", .str key)]),
    ("storage", .obj [("baseDir", .str baseDir), ("databaseFile", .str "runtime.db")]),
    ("llmData", .obj [("maxTextBytes", .num 65536)]),
    ("webshell", .obj [("modifiedWithinHours", .num 72)]),
    ("threatIntel", threatIntelDefault),
    ("remediation", .obj [("requireApproval", .bool true), ("allowedTools", .arr [.str "quarantine_file"]),
      ("quarantineRoot", .str "/var/lib/q")])]

def samplePath : String := "/app/config/default.yaml"

def sampleInput (baseUrl : String) : Json := .obj (sampleFields baseUrl "./data" "/etc/known" "../key")

/-- Its normal form, with the directory that its path is resolved to. -/
def sampleConfigIn (baseDir baseUrl : String) : Json :=
  .obj (sampleFields baseUrl baseDir "/etc/known" "/key" ++
    [("schemaVersion", .num 2), ("protocolV2", protocolDefault)])

def sampleConfig (baseUrl : String) : Json := sampleConfigIn "/app/data" baseUrl

/-- A library that knows one document. -/
def sampleYaml (document : Json) : Yaml := ⟨fun _ => some document, fun _ => "schemaVersion: 2"⟩

theorem normalizeConfig_sample :
    normalizeConfig sampleRuntime (sampleInput "https://h/a/") samplePath = .ok (sampleConfig "https://h/a") := by rfl

theorem endpointStable_sample : EndpointStable sampleRuntime (sampleInput "https://h/a/") := by
  intro _ url hurl
  cases (show some (⟨"", "", "", "", "https:", "h", "https://h/a/"⟩ : Url) = some url from hurl)
  decide

theorem statesNoProtocol_sample : StatesNoProtocol (sampleInput "https://h/a/") := by
  intro rest value hstated _
  cases (show none = some value from hstated)

theorem legacy_config_lasts :
    Lasts sampleRuntime (sampleYaml (sampleConfig "https://h/a")) samplePath (sampleConfig "https://h/a") ∧
      (isLegacy (sampleInput "https://h/a/") = true → Survives (sampleInput "https://h/a/")) :=
  (normalizeConfig_stable_iff sampleRuntime (sampleYaml (sampleConfig "https://h/a")) (sampleInput "https://h/a/")
    (sampleConfig "https://h/a") samplePath normalizeConfig_sample rfl).2
    ⟨endpointStable_sample, fun _ => statesNoProtocol_sample⟩

/-- Of two slashes at the end of the endpoint, every pass takes one. -/
theorem normalizeConfig_slashes :
    normalizeConfig sampleRuntime (sampleInput "https://h/a//") samplePath = .ok (sampleConfig "https://h/a/") ∧
      normalizeConfig sampleRuntime (sampleConfig "https://h/a/") samplePath = .ok (sampleConfig "https://h/a") :=
  ⟨rfl, rfl⟩

theorem normalizeConfig_not_idempotent : ¬ ∀ input config sourcePath,
    normalizeConfig sampleRuntime input sourcePath = .ok config →
      normalizeConfig sampleRuntime config sourcePath = .ok config := by
  intro h
  have hsame := (normalizeConfig_slashes.2).symm.trans (h _ _ _ normalizeConfig_slashes.1)
  have htext := congrArg (fun c => textAt c ["model", "baseUrl"]) (Except.ok.inj hsame)
  exact absurd htext (by decide)

end HuntWarden.LoadConfig
