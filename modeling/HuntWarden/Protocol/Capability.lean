import HuntWarden.Storage.Grants

/-! What of a helper's capability report takes effect: the namespaces that the manifest knows and a
    category grant covers, with the fields, relations and verbs that are known too. Names come from the
    report and are looked up in records of the controller, which inherit properties of their own. -/

namespace HuntWarden.Capability

open Outcome

/-- What the gate asks of the manifest. -/
structure ManifestEntry where
  fields : List String
  relations : List String
  deriving DecidableEq, Repr

structure ProtocolManifest where
  version : String
  namespaces : List (String × ManifestEntry)
  enumerateLimit : ℚ
  readBytes : ℚ
  collectBytes : ℚ

structure NamespaceReport where
  fields : List String
  relations : List String
  verbs : Option (List String)
  deriving DecidableEq, Repr

structure CapabilityLimits where
  maxObjects : ℚ
  maxOutputBytes : ℚ
  maxReadBytes : ℚ
  maxCollectBytes : ℚ
  deriving DecidableEq, Repr

/-- `HelperCapabilitiesV2`, as the helper reports it. -/
structure HelperCapabilities where
  protocolVersion : ℕ
  manifestVersion : String
  namespaces : List (String × NamespaceReport)
  matchers : List String
  probes : List String
  verbs : List String
  limits : CapabilityLimits

structure EffectiveNamespace where
  fields : List String
  relations : List String
  verbs : List String
  deriving DecidableEq, Repr

structure EffectiveCapabilities where
  namespaces : List (String × EffectiveNamespace)
  matchers : List String
  probes : List String
  verbs : List String
  limits : CapabilityLimits
  protocolAnomalies : List String
  deriving DecidableEq

/-- A grant with the end of its validity. -/
structure ExpiringGrant extends TaskGrant where
  expiresAt : Option String := none
  deriving DecidableEq

/-! ### Grants -/

/-- `CATEGORY_NAMESPACES`. -/
def categoryNamespaces : CheckCategory → List NamespaceName
  | .webshell => [.host, .process, .file, .logSource, .logEvent, .webStack, .webRoot]
  | .javaMemoryShell => [.host, .process, .file, .module_, .jvm, .javaComponent, .class_]
  | .backdoorAccount =>
    [.host, .account, .sshKey, .delegationRule, .sshTrustConfig, .file, .logSource, .authEvent]
  | .linuxPersistence => [.host, .process, .file, .sshKey, .cronEntry, .unit, .persistence, .module_]
  | .linuxIntrusionTriage =>
    [.host, .process, .socket, .file, .account, .sshKey, .cronEntry, .unit, .persistence, .module_,
      .logSource, .logEvent, .authEvent, .execEvent, .package]

def categories : List CheckCategory :=
  [.webshell, .javaMemoryShell, .backdoorAccount, .linuxPersistence, .linuxIntrusionTriage]

/-- The namespaces of the category of that name. -/
def categoryEntry (category : String) : Option (List String) :=
  (categories.find? (·.name = category)).map fun category =>
    (categoryNamespaces category).map NamespaceName.name

/-- When the language reads a text as a point in time, and the time of the call. -/
structure Clock where
  dateParse : String → Option ℤ
  now : ℤ

variable (clock : Clock)

/-- `grant.status === "ACTIVE" && (!grant.expiresAt || Date.parse(grant.expiresAt) > now)` -/
def isActive (grant : ExpiringGrant) : Bool :=
  grant.status = .active && (Js.truthyText grant.expiresAt).all fun text =>
    (clock.dateParse text).any fun expiresAt => clock.now < expiresAt

/-- A property that every record inherits is a function or a record, never a set. -/
def noSet : Thrown := .native "CATEGORY_NAMESPACES[grant.binding.category].has is not a function"

def categoryGrantAllowsNamespace (namespace_ : String) : List ExpiringGrant → Except Thrown Bool
  | [] => .ok false
  | grant :: grants =>
    match grant.kind = .category && isActive clock grant, grant.binding.lookup "category" with
    | true, some (.str category) =>
      match categoryEntry category with
      | some names =>
        if namespace_ ∈ names then .ok true
        else categoryGrantAllowsNamespace namespace_ grants
      | none =>
        if category ∈ Js.prototypeNames then .error noSet
        else categoryGrantAllowsNamespace namespace_ grants
    | _, _ => categoryGrantAllowsNamespace namespace_ grants

/-! ### The gate -/

def knownVerbs : List String :=
  ["enumerate", "project", "read", "match", "relate", "verify", "collect", "probe"]

def knownMatchers : List String := ["literal", "re2", "yara"]

def knownProbes : List String := ["jvm.tomcat.inventory", "jvm.class.inspect", "jvm.class.dump"]

/-- `record[name]` as a condition, for a record whose own values are records. -/
def hasProperty (own : List String) (name : String) : Bool :=
  name ∈ own || name ∈ Js.prototypeNames

/-- The items that are known, as a set, and what is recorded of the others. -/
def sift (known : String → Bool) (anomaly : String → String) (items : List String) :
    List String × List String :=
  (Js.distinct (items.filter known), (items.filter (!known ·)).map anomaly)

def unknownNamespace (name : String) : String := s!"helper_advertised_unknown_namespace:{name}"

def unknownField (name field : String) : String := s!"helper_advertised_unknown_field:{name}.{field}"

def unknownRelation (name relation : String) : String :=
  s!"helper_advertised_unknown_relation:{name}.{relation}"

def unknownVerb (name verb : String) : String := s!"helper_advertised_unknown_verb:{name}.{verb}"

variable (manifest : ProtocolManifest)

/-- A granted namespace: what takes effect, and the anomalies. -/
def siftNamespace (helper : HelperCapabilities) (name : String) (entry : ManifestEntry)
    (advertised : NamespaceReport) : EffectiveNamespace × List String :=
  let fields := sift (hasProperty entry.fields) (unknownField name) advertised.fields
  let relations := sift (· ∈ entry.relations) (unknownRelation name) advertised.relations
  let verbs := sift (fun verb => verb ∈ knownVerbs && verb ∈ helper.verbs) (unknownVerb name)
    (advertised.verbs.getD [])
  (⟨fields.1, relations.1, verbs.1⟩, fields.2 ++ relations.2 ++ verbs.2)

/-- What an inherited property has none of. -/
def noFields : Thrown := .native "Cannot read properties of undefined"

/-- One reported namespace. -/
def gateNamespace (helper : HelperCapabilities) (active : List ExpiringGrant)
    (name : String) (advertised : NamespaceReport) :
    Except Thrown (Option EffectiveNamespace × List String) :=
  if !hasProperty (manifest.namespaces.map Prod.fst) name || name = "task_ioc" then
    .ok (none, [unknownNamespace name])
  else do
    if ← categoryGrantAllowsNamespace clock name active then
      let entry ← orThrow (manifest.namespaces.lookup name) noFields
      let (effective, anomalies) := siftNamespace helper name entry advertised
      return (some effective, anomalies)
    else return (none, [])

/-- The loop over the reported namespaces. -/
def gateNamespaces (helper : HelperCapabilities) (active : List ExpiringGrant) :
    List (String × NamespaceReport) →
      Except Thrown (List (String × EffectiveNamespace) × List String)
  | [] => .ok ([], [])
  | (name, advertised) :: rest => do
    let (effective, anomalies) ← gateNamespace clock manifest helper active name advertised
    let (namespaces, others) ← gateNamespaces helper active rest
    return ((effective.map fun effective => (name, effective)).toList ++ namespaces,
      anomalies ++ others)

def protocolVersion : ℕ := 2

def maxOutputBytes : ℚ := 1572864

def gateCapabilities (helper : HelperCapabilities) (grants : List ExpiringGrant) :
    Except Thrown EffectiveCapabilities := do
  require (helper.protocolVersion = protocolVersion ∧ helper.manifestVersion = manifest.version)
    (securityError .unsupportedEnvironment
      s!"Helper v2 协议不兼容：protocol={helper.protocolVersion}, manifest={helper.manifestVersion}")
  let active := grants.filter (isActive clock)
  let (namespaces, anomalies) ← gateNamespaces clock manifest helper active helper.namespaces
  return {
    namespaces
    matchers := Js.distinct (helper.matchers.filter (· ∈ knownMatchers))
    probes := Js.distinct (helper.probes.filter (· ∈ knownProbes))
    verbs := Js.distinct (helper.verbs.filter (· ∈ knownVerbs))
    limits := {
      maxObjects := min helper.limits.maxObjects manifest.enumerateLimit
      maxOutputBytes := min helper.limits.maxOutputBytes maxOutputBytes
      maxReadBytes := min helper.limits.maxReadBytes manifest.readBytes
      maxCollectBytes := min helper.limits.maxCollectBytes manifest.collectBytes }
    protocolAnomalies := anomalies }

/-! ### The intersection -/

/-- A category grant that is active and has not run out covers the namespace. -/
def Granted (grants : List ExpiringGrant) (name : String) : Prop :=
  ∃ grant ∈ grants, grant.kind = .category ∧ isActive clock grant = true ∧
    ∃ category names, grant.binding.lookup "category" = some (.str category) ∧
      categoryEntry category = some names ∧ name ∈ names

/-- The manifest's own entry of a namespace that can be reported. -/
def ownEntry (name : String) : Option ManifestEntry :=
  if name = "task_ioc" then none else manifest.namespaces.lookup name

/-- What was reported of a namespace, as far as the manifest and the report's verbs know it. -/
structure Selected (helper : HelperCapabilities) (entry : ManifestEntry)
    (advertised : NamespaceReport) (effective : EffectiveNamespace) : Prop where
  fields : ∀ field, field ∈ effective.fields ↔ field ∈ advertised.fields ∧ field ∈ entry.fields
  relations : ∀ relation, relation ∈ effective.relations ↔
    relation ∈ advertised.relations ∧ relation ∈ entry.relations
  verbs : ∀ verb, verb ∈ effective.verbs ↔
    verb ∈ advertised.verbs.getD [] ∧ verb ∈ knownVerbs ∧ verb ∈ helper.verbs

/-- What is reported and unknown, in the words of the anomaly. -/
inductive Unknown (helper : HelperCapabilities) (grants : List ExpiringGrant) : String → Prop where
  | namespace_ {name : String} {advertised : NamespaceReport}
      (hreported : (name, advertised) ∈ helper.namespaces) (hunknown : ownEntry manifest name = none) :
      Unknown helper grants (unknownNamespace name)
  | field {name field : String} {advertised : NamespaceReport} {entry : ManifestEntry}
      (hreported : (name, advertised) ∈ helper.namespaces)
      (hentry : ownEntry manifest name = some entry) (hgranted : Granted clock grants name)
      (hfield : field ∈ advertised.fields) (hunknown : field ∉ entry.fields) :
      Unknown helper grants (unknownField name field)
  | relation {name relation : String} {advertised : NamespaceReport} {entry : ManifestEntry}
      (hreported : (name, advertised) ∈ helper.namespaces)
      (hentry : ownEntry manifest name = some entry) (hgranted : Granted clock grants name)
      (hrelation : relation ∈ advertised.relations) (hunknown : relation ∉ entry.relations) :
      Unknown helper grants (unknownRelation name relation)
  | verb {name verb : String} {advertised : NamespaceReport} {entry : ManifestEntry}
      (hreported : (name, advertised) ∈ helper.namespaces)
      (hentry : ownEntry manifest name = some entry) (hgranted : Granted clock grants name)
      (hverb : verb ∈ advertised.verbs.getD [])
      (hunknown : ¬ (verb ∈ knownVerbs ∧ verb ∈ helper.verbs)) :
      Unknown helper grants (unknownVerb name verb)

/-- The effective capabilities are the intersection, below the hard limits, and the anomalies are what
    was unknown. -/
structure Exact (helper : HelperCapabilities) (grants : List ExpiringGrant)
    (effective : EffectiveCapabilities) : Prop where
  sound : ∀ name item, (name, item) ∈ effective.namespaces → ∃ advertised entry,
    (name, advertised) ∈ helper.namespaces ∧ ownEntry manifest name = some entry ∧
      Granted clock grants name ∧ Selected helper entry advertised item
  complete : ∀ name advertised entry, (name, advertised) ∈ helper.namespaces →
    ownEntry manifest name = some entry → Granted clock grants name →
      ∃ item, (name, item) ∈ effective.namespaces ∧ Selected helper entry advertised item
  matchers : ∀ name, name ∈ effective.matchers ↔ name ∈ helper.matchers ∧ name ∈ knownMatchers
  probes : ∀ name, name ∈ effective.probes ↔ name ∈ helper.probes ∧ name ∈ knownProbes
  verbs : ∀ verb, verb ∈ effective.verbs ↔ verb ∈ helper.verbs ∧ verb ∈ knownVerbs
  limits : effective.limits.maxObjects ≤ manifest.enumerateLimit ∧
    effective.limits.maxOutputBytes ≤ maxOutputBytes ∧
    effective.limits.maxReadBytes ≤ manifest.readBytes ∧
    effective.limits.maxCollectBytes ≤ manifest.collectBytes
  anomalies : ∀ text, text ∈ effective.protocolAnomalies ↔
    Unknown clock manifest helper grants text

/-- None of the names that are looked up is one that every record inherits. -/
structure OwnNames (helper : HelperCapabilities) (grants : List ExpiringGrant) : Prop where
  namespaces : ∀ reported ∈ helper.namespaces, reported.1 ∉ Js.prototypeNames
  fields : ∀ reported ∈ helper.namespaces, ∀ field ∈ reported.2.fields, field ∉ Js.prototypeNames
  categories : ∀ grant ∈ grants, ∀ category,
    grant.binding.lookup "category" = some (.str category) → category ∉ Js.prototypeNames

/-! ### What the gate computes -/

variable {clock manifest} {helper : HelperCapabilities} {grants grants' : List ExpiringGrant}

theorem granted_cons {grant : ExpiringGrant} {name : String} :
    Granted clock (grant :: grants) name ↔
      (grant.kind = .category ∧ isActive clock grant = true ∧
        ∃ category names, grant.binding.lookup "category" = some (.str category) ∧
          categoryEntry category = some names ∧ name ∈ names) ∨ Granted clock grants name := by
  simp only [Granted, List.mem_cons, exists_eq_or_imp]

/-- The search through the grants finds one that covers the namespace. -/
theorem allows_iff {name : String} (hcategories : ∀ grant ∈ grants, ∀ category,
      grant.binding.lookup "category" = some (.str category) → category ∉ Js.prototypeNames) :
    ∃ allowed, categoryGrantAllowsNamespace clock name grants = .ok allowed ∧
      (allowed = true ↔ Granted clock grants name) := by
  induction grants with
  | nil => exact ⟨false, rfl, by simp [Granted]⟩
  | cons grant grants ih =>
    obtain ⟨hgrant, hgrants⟩ := List.forall_mem_cons.1 hcategories
    obtain ⟨allowed, hallowed, hiff⟩ := ih hgrants
    -- the grants after one that does not cover the namespace decide
    have hskip : ¬ (grant.kind = .category ∧ isActive clock grant = true ∧
        ∃ category names, grant.binding.lookup "category" = some (.str category) ∧
          categoryEntry category = some names ∧ name ∈ names) →
        (allowed = true ↔ Granted clock (grant :: grants) name) := by
      intro hnot
      rw [granted_cons, hiff]
      exact ⟨Or.inr, fun h => h.resolve_left hnot⟩
    rw [categoryGrantAllowsNamespace]
    split
    · rename_i category hactive hcategory
      obtain ⟨hkind, hactive⟩ := Bool.and_eq_true_iff.1 hactive
      split
      · rename_i names hnames
        by_cases hmem : name ∈ names
        · rw [if_pos hmem]
          exact ⟨true, rfl, fun _ => granted_cons.2 (Or.inl ⟨of_decide_eq_true hkind, hactive,
            category, names, hcategory, hnames, hmem⟩), fun _ => rfl⟩
        · rw [if_neg hmem]
          refine ⟨allowed, hallowed, hskip ?_⟩
          rintro ⟨-, -, category', names', hcategory', hnames', hmem'⟩
          cases hcategory.symm.trans hcategory'
          cases hnames.symm.trans hnames'
          exact hmem hmem'
      · rename_i hnames
        rw [if_neg (hgrant category hcategory)]
        refine ⟨allowed, hallowed, hskip ?_⟩
        rintro ⟨-, -, category', names', hcategory', hnames', -⟩
        cases hcategory.symm.trans hcategory'
        cases hnames.symm.trans hnames'
    · rename_i hnone
      refine ⟨allowed, hallowed, hskip ?_⟩
      rintro ⟨hkind, hactive, category, names, hcategory, -⟩
      exact hnone category (by rw [hkind, hactive]; rfl) hcategory

theorem granted_filter {name : String} :
    Granted clock (grants.filter (isActive clock)) name ↔ Granted clock grants name := by
  constructor
  · rintro ⟨grant, hgrant, h⟩
    exact ⟨grant, List.mem_of_mem_filter hgrant, h⟩
  · rintro ⟨grant, hgrant, hkind, hactive, h⟩
    exact ⟨grant, List.mem_filter.2 ⟨hgrant, hactive⟩, hkind, hactive, h⟩

theorem Granted.mono {name : String} (h : Granted clock grants name) (hsub : grants ⊆ grants') :
    Granted clock grants' name := by
  obtain ⟨grant, hgrant, hcovers⟩ := h
  exact ⟨grant, hsub hgrant, hcovers⟩

theorem mem_sift {known : String → Bool} {anomaly : String → String} {items : List String}
    {item : String} : item ∈ (sift known anomaly items).1 ↔ item ∈ items ∧ known item = true := by
  rw [sift, Js.mem_distinct, List.mem_filter]

theorem mem_sift_anomalies {known : String → Bool} {anomaly : String → String}
    {items : List String} {text : String} : text ∈ (sift known anomaly items).2 ↔
      ∃ item ∈ items, known item = false ∧ anomaly item = text := by
  simp only [sift, List.mem_map, List.mem_filter, Bool.not_eq_true', and_assoc]

theorem hasProperty_own {own : List String} {name : String} (h : name ∉ Js.prototypeNames) :
    hasProperty own name = decide (name ∈ own) := by
  simp [hasProperty, h]

theorem selected_sift {name : String} {entry : ManifestEntry} {advertised : NamespaceReport}
    (hown : ∀ field ∈ advertised.fields, field ∉ Js.prototypeNames) :
    Selected helper entry advertised (siftNamespace helper name entry advertised).1 where
  fields field := by
    rw [siftNamespace, mem_sift]
    refine and_congr_right fun hfield => ?_
    rw [hasProperty_own (hown field hfield), decide_eq_true_iff]
  relations relation := by
    rw [siftNamespace, mem_sift, decide_eq_true_iff]
  verbs verb := by
    rw [siftNamespace, mem_sift, Bool.and_eq_true, decide_eq_true_iff, decide_eq_true_iff]

theorem mem_siftNamespace {name : String} {entry : ManifestEntry} {advertised : NamespaceReport}
    (hown : ∀ field ∈ advertised.fields, field ∉ Js.prototypeNames) {text : String} :
    text ∈ (siftNamespace helper name entry advertised).2 ↔
      (∃ field ∈ advertised.fields, field ∉ entry.fields ∧ unknownField name field = text) ∨
      (∃ relation ∈ advertised.relations,
        relation ∉ entry.relations ∧ unknownRelation name relation = text) ∨
      ∃ verb ∈ advertised.verbs.getD [],
        ¬ (verb ∈ knownVerbs ∧ verb ∈ helper.verbs) ∧ unknownVerb name verb = text := by
  simp only [siftNamespace, List.mem_append, mem_sift_anomalies, or_assoc]
  refine or_congr ?_ (or_congr ?_ ?_)
  · refine exists_congr fun field => and_congr_right fun hfield => ?_
    rw [hasProperty_own (hown field hfield), decide_eq_false_iff_not]
  · simp only [decide_eq_false_iff_not]
  · simp only [← Bool.not_eq_true, Bool.and_eq_true, decide_eq_true_iff]

/-- One namespace, by what the manifest and the grants say of it. -/
inductive Gated (clock : Clock) (manifest : ProtocolManifest) (helper : HelperCapabilities)
    (grants : List ExpiringGrant) (name : String) (advertised : NamespaceReport) :
    Option EffectiveNamespace × List String → Prop where
  | unknown (hunknown : ownEntry manifest name = none) :
      Gated clock manifest helper grants name advertised (none, [unknownNamespace name])
  | ungranted {entry : ManifestEntry} (hentry : ownEntry manifest name = some entry)
      (hgranted : ¬ Granted clock grants name) :
      Gated clock manifest helper grants name advertised (none, [])
  | granted {entry : ManifestEntry} (hentry : ownEntry manifest name = some entry)
      (hgranted : Granted clock grants name) :
      Gated clock manifest helper grants name advertised
        (some (siftNamespace helper name entry advertised).1,
          (siftNamespace helper name entry advertised).2)

theorem lookup_isSome {entries : List (String × ManifestEntry)} {name : String} :
    (entries.lookup name).isSome = decide (name ∈ entries.map Prod.fst) := by
  induction entries with
  | nil => rfl
  | cons entry entries ih =>
    rw [List.lookup_cons, List.map_cons]
    cases h : name == entry.1 with
    | true => simp [beq_iff_eq.1 h]
    | false => simp [ih, beq_eq_false_iff_ne.1 h]

theorem gateNamespace_gated {name : String} {advertised : NamespaceReport}
    (hname : name ∉ Js.prototypeNames)
    (hcategories : ∀ grant ∈ grants, ∀ category,
      grant.binding.lookup "category" = some (.str category) → category ∉ Js.prototypeNames) :
    ∃ result, gateNamespace clock manifest helper (grants.filter (isActive clock)) name
        advertised = .ok result ∧
      Gated clock manifest helper grants name advertised result := by
  rw [gateNamespace, hasProperty_own hname, ← lookup_isSome]
  by_cases htask : name = "task_ioc"
  · rw [if_pos (by simp [htask])]
    exact ⟨_, rfl, .unknown (by rw [ownEntry, if_pos htask])⟩
  · have hown : ownEntry manifest name = manifest.namespaces.lookup name := by
      rw [ownEntry, if_neg htask]
    cases hlookup : manifest.namespaces.lookup name with
    | none =>
      rw [if_pos (by simp)]
      exact ⟨_, rfl, .unknown (hown.trans hlookup)⟩
    | some entry =>
      rw [if_neg (by simp [htask])]
      obtain ⟨allowed, hallowed, hiff⟩ := @allows_iff clock (grants.filter (isActive clock)) name
        fun grant hgrant => hcategories grant (List.mem_of_mem_filter hgrant)
      rw [granted_filter] at hiff
      rw [hallowed]
      cases allowed with
      | true => exact ⟨_, rfl, .granted (hown.trans hlookup) (hiff.1 rfl)⟩
      | false =>
        refine ⟨_, rfl, .ungranted (hown.trans hlookup) fun hgranted => ?_⟩
        exact Bool.noConfusion (hiff.2 hgranted)

/-- What a loop over the reported namespaces has gathered. -/
structure Gathered (clock : Clock) (manifest : ProtocolManifest) (helper : HelperCapabilities)
    (grants : List ExpiringGrant) (reported : List (String × NamespaceReport))
    (namespaces : List (String × EffectiveNamespace)) (anomalies : List String) : Prop where
  namespaces : ∀ name item, (name, item) ∈ namespaces ↔ ∃ advertised entry,
    (name, advertised) ∈ reported ∧ ownEntry manifest name = some entry ∧
      Granted clock grants name ∧ item = (siftNamespace helper name entry advertised).1
  anomalies : ∀ text, text ∈ anomalies ↔ ∃ name advertised, (name, advertised) ∈ reported ∧
    (ownEntry manifest name = none ∧ text = unknownNamespace name ∨
      ∃ entry, ownEntry manifest name = some entry ∧ Granted clock grants name ∧
        text ∈ (siftNamespace helper name entry advertised).2)

theorem gateNamespaces_gathered {reported : List (String × NamespaceReport)}
    (hnames : ∀ r ∈ reported, r.1 ∉ Js.prototypeNames)
    (hcategories : ∀ grant ∈ grants, ∀ category,
      grant.binding.lookup "category" = some (.str category) → category ∉ Js.prototypeNames) :
    ∃ namespaces anomalies, gateNamespaces clock manifest helper
        (grants.filter (isActive clock)) reported = .ok (namespaces, anomalies) ∧
      Gathered clock manifest helper grants reported namespaces anomalies := by
  induction reported with
  | nil => exact ⟨[], [], rfl, by simp, by simp⟩
  | cons r reported ih =>
    obtain ⟨name, advertised⟩ := r
    obtain ⟨hname, hrest⟩ := List.forall_mem_cons.1 hnames
    obtain ⟨namespaces, anomalies, hgate, hgathered⟩ := ih hrest
    obtain ⟨result, hresult, hgated⟩ :=
      @gateNamespace_gated clock manifest helper grants name advertised hname hcategories
    rw [gateNamespaces, hresult]
    refine ⟨_, _, by rw [hgate]; rfl, ?_, ?_⟩
    · intro name' item
      rw [List.mem_append, hgathered.namespaces]
      constructor
      · rintro (hhead | ⟨advertised', entry, hmem, h⟩)
        · cases hgated with
          | unknown _ => cases hhead
          | ungranted _ _ => cases hhead
          | granted hentry hgranted =>
            cases List.mem_singleton.1 hhead
            exact ⟨advertised, _, List.mem_cons_self, hentry, hgranted, rfl⟩
        · exact ⟨advertised', entry, List.mem_cons_of_mem _ hmem, h⟩
      · rintro ⟨advertised', entry, hmem, hentry, hgranted, rfl⟩
        rcases List.mem_cons.1 hmem with heq | hmem
        · cases heq
          refine Or.inl ?_
          cases hgated with
          | unknown hunknown => cases hunknown.symm.trans hentry
          | ungranted _ hnot => exact absurd hgranted hnot
          | granted hentry' _ =>
            cases hentry.symm.trans hentry'
            exact List.mem_singleton_self _
        · exact Or.inr ⟨advertised', entry, hmem, hentry, hgranted, rfl⟩
    · intro text
      rw [List.mem_append, hgathered.anomalies]
      constructor
      · rintro (hhead | ⟨name', advertised', hmem, h⟩)
        · refine ⟨name, advertised, List.mem_cons_self, ?_⟩
          cases hgated with
          | unknown hunknown => exact Or.inl ⟨hunknown, List.mem_singleton.1 hhead⟩
          | ungranted _ _ => cases hhead
          | granted hentry hgranted => exact Or.inr ⟨_, hentry, hgranted, hhead⟩
        · exact ⟨name', advertised', List.mem_cons_of_mem _ hmem, h⟩
      · rintro ⟨name', advertised', hmem, h⟩
        rcases List.mem_cons.1 hmem with heq | hmem
        · cases heq
          refine Or.inl ?_
          cases hgated with
          | unknown hunknown =>
            rcases h with ⟨-, rfl⟩ | ⟨entry, hentry, -⟩
            · exact List.mem_singleton_self _
            · cases hunknown.symm.trans hentry
          | ungranted hentry' hnot =>
            rcases h with ⟨hunknown, -⟩ | ⟨entry, -, hgranted, -⟩
            · cases hunknown.symm.trans hentry'
            · exact absurd hgranted hnot
          | granted hentry' _ =>
            rcases h with ⟨hunknown, -⟩ | ⟨entry, hentry, -, htext⟩
            · cases hunknown.symm.trans hentry'
            · cases hentry.symm.trans hentry'
              exact htext
        · exact Or.inr ⟨name', advertised', hmem, h⟩

/-! ### The gate as a whole -/

/-- For a report of the right versions whose names are not inherited ones the gate gives the
    intersection, and more grants never take anything away. -/
theorem gateCapabilities_exact (hversion : helper.protocolVersion = protocolVersion ∧
      helper.manifestVersion = manifest.version) (hown : OwnNames helper grants) :
    ∃ effective, gateCapabilities clock manifest helper grants = .ok effective ∧
      Exact clock manifest helper grants effective ∧
      ∀ grants', grants ⊆ grants' → OwnNames helper grants' →
        ∃ effective', gateCapabilities clock manifest helper grants' = .ok effective' ∧
          effective.namespaces ⊆ effective'.namespaces ∧
          effective' = { effective with
            namespaces := effective'.namespaces
            protocolAnomalies := effective'.protocolAnomalies } := by
  have hgate : ∀ grants, OwnNames helper grants → ∃ effective namespaces anomalies,
      gateCapabilities clock manifest helper grants = .ok effective ∧
      Gathered clock manifest helper grants helper.namespaces namespaces anomalies ∧
      effective = {
        namespaces
        matchers := Js.distinct (helper.matchers.filter (· ∈ knownMatchers))
        probes := Js.distinct (helper.probes.filter (· ∈ knownProbes))
        verbs := Js.distinct (helper.verbs.filter (· ∈ knownVerbs))
        limits := {
          maxObjects := min helper.limits.maxObjects manifest.enumerateLimit
          maxOutputBytes := min helper.limits.maxOutputBytes maxOutputBytes
          maxReadBytes := min helper.limits.maxReadBytes manifest.readBytes
          maxCollectBytes := min helper.limits.maxCollectBytes manifest.collectBytes }
        protocolAnomalies := anomalies } := by
    intro grants hown
    obtain ⟨namespaces, anomalies, hloop, hgathered⟩ := @gateNamespaces_gathered clock manifest
      helper grants helper.namespaces hown.namespaces hown.categories
    refine ⟨_, namespaces, anomalies, ?_, hgathered, rfl⟩
    exact bind_ok.2 ⟨(), require_ok.2 (decide_eq_true hversion), bind_ok.2 ⟨_, hloop, rfl⟩⟩
  obtain ⟨effective, namespaces, anomalies, hok, hgathered, heffective⟩ := hgate grants hown
  refine ⟨effective, hok, ?_, ?_⟩
  · have hset : ∀ {items known : List String} (item : String),
        item ∈ Js.distinct (items.filter (· ∈ known)) ↔ item ∈ items ∧ item ∈ known := by
      intro items known item
      rw [Js.mem_distinct, List.mem_filter, decide_eq_true_iff]
    subst heffective
    refine ⟨?_, ?_, hset, hset, hset,
      ⟨min_le_right _ _, min_le_right _ _, min_le_right _ _, min_le_right _ _⟩, ?_⟩
    · intro name item hitem
      obtain ⟨advertised, entry, hmem, hentry, hgranted, rfl⟩ := (hgathered.namespaces name item).1 hitem
      exact ⟨advertised, entry, hmem, hentry, hgranted, selected_sift (hown.fields _ hmem)⟩
    · intro name advertised entry hmem hentry hgranted
      exact ⟨_, (hgathered.namespaces name _).2 ⟨advertised, entry, hmem, hentry, hgranted, rfl⟩,
        selected_sift (hown.fields _ hmem)⟩
    · intro text
      rw [hgathered.anomalies]
      constructor
      · rintro ⟨name, advertised, hmem, ⟨hunknown, rfl⟩ | ⟨entry, hentry, hgranted, htext⟩⟩
        · exact .namespace_ hmem hunknown
        · rcases (mem_siftNamespace (hown.fields _ hmem)).1 htext with ⟨field, hfield, hnot, rfl⟩ |
            ⟨relation, hrelation, hnot, rfl⟩ | ⟨verb, hverb, hnot, rfl⟩
          · exact .field hmem hentry hgranted hfield hnot
          · exact .relation hmem hentry hgranted hrelation hnot
          · exact .verb hmem hentry hgranted hverb hnot
      · intro hunknown
        cases hunknown with
        | namespace_ hmem hunknown => exact ⟨_, _, hmem, Or.inl ⟨hunknown, rfl⟩⟩
        | field hmem hentry hgranted hfield hnot =>
          exact ⟨_, _, hmem, Or.inr ⟨_, hentry, hgranted,
            (mem_siftNamespace (hown.fields _ hmem)).2 (Or.inl ⟨_, hfield, hnot, rfl⟩)⟩⟩
        | relation hmem hentry hgranted hrelation hnot =>
          exact ⟨_, _, hmem, Or.inr ⟨_, hentry, hgranted,
            (mem_siftNamespace (hown.fields _ hmem)).2 (Or.inr (Or.inl ⟨_, hrelation, hnot, rfl⟩))⟩⟩
        | verb hmem hentry hgranted hverb hnot =>
          exact ⟨_, _, hmem, Or.inr ⟨_, hentry, hgranted,
            (mem_siftNamespace (hown.fields _ hmem)).2 (Or.inr (Or.inr ⟨_, hverb, hnot, rfl⟩))⟩⟩
  · intro grants' hsub hown'
    obtain ⟨effective', namespaces', anomalies', hok', hgathered', heffective'⟩ := hgate grants' hown'
    refine ⟨effective', hok', ?_, ?_⟩
    · rw [heffective, heffective']
      rintro ⟨name, item⟩ hitem
      obtain ⟨advertised, entry, hmem, hentry, hgranted, hselected⟩ :=
        (hgathered.namespaces name item).1 hitem
      exact (hgathered'.namespaces name item).2
        ⟨advertised, entry, hmem, hentry, hgranted.mono hsub, hselected⟩
    · rw [heffective, heffective']

/-! ### The manifest of the protocol -/

/-- `NAMESPACE_NAMES`. -/
def namespaceNames : List NamespaceName :=
  [.host, .process, .socket, .file, .account, .sshKey, .delegationRule, .sshTrustConfig, .cronEntry,
    .unit, .persistence, .module_, .logSource, .logEvent, .authEvent, .execEvent, .webStack, .webRoot,
    .jvm, .javaComponent, .class_, .package, .taskIoc]

/-- `PROTOCOL_MANIFEST`. -/
def protocolManifest : ProtocolManifest where
  version := "3.0.0"
  namespaces := namespaceNames.map fun name =>
    (name.name, ⟨(Manifest.definitions name).fields.map Prod.fst, (Manifest.definitions name).relations⟩)
  enumerateLimit := 500
  readBytes := 65536
  collectBytes := 104857600

def sampleClock : Clock := ⟨fun _ => none, 0⟩

/-- A helper that knows the processes, and a field too many. -/
def sampleReport : HelperCapabilities where
  protocolVersion := 2
  manifestVersion := "3.0.0"
  namespaces := [("process", ⟨["pid", "doesNotExist"], ["children", "invented"], some ["enumerate"]⟩),
    ("task_ioc", ⟨["kind"], [], none⟩)]
  matchers := ["literal"]
  probes := []
  verbs := ["enumerate"]
  limits := ⟨99999, 99999999, 99999999, 999999999⟩

def triageGrant : ExpiringGrant where
  grantId := "GRANT-1"
  taskId := "TASK-1"
  targetFingerprint := "SHA256:host"
  kind := .category
  status := .active
  binding := [("category", .str "linux_intrusion_triage")]
  createdAt := 0

theorem ownNames_sample : OwnNames sampleReport [triageGrant] where
  namespaces := by decide
  fields := by decide
  categories := by
    intro grant hgrant category hcategory
    obtain rfl := List.mem_singleton.1 hgrant
    cases hcategory
    decide

theorem gateCapabilities_exact_sample : ∃ effective,
    gateCapabilities sampleClock protocolManifest sampleReport [triageGrant] = .ok effective ∧
      Exact sampleClock protocolManifest sampleReport [triageGrant] effective := by
  obtain ⟨effective, hok, hexact, -⟩ :=
    @gateCapabilities_exact sampleClock protocolManifest sampleReport [triageGrant] ⟨rfl, rfl⟩
      ownNames_sample
  exact ⟨effective, hok, hexact⟩

/-- Without a grant the processes are left out, and no anomaly says so. -/
theorem ungranted_without_anomaly :
    (∃ advertised, ("process", advertised) ∈ sampleReport.namespaces) ∧
      (gateCapabilities sampleClock protocolManifest sampleReport []).toOption.any (fun effective =>
        effective.namespaces.isEmpty &&
          effective.protocolAnomalies = [unknownNamespace "task_ioc"]) = true :=
  ⟨⟨_, List.mem_cons_self⟩, by decide⟩

end HuntWarden.Capability
