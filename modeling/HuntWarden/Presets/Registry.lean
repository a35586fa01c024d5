import HuntWarden.Protocol.Types
import HuntWarden.Tools.RemoteTool
import Mathlib.Data.List.Sort

/-! The presets of the check categories. Each is a list of steps, and of criteria that name the steps they
    rest on. -/

namespace HuntWarden.Presets

open RemoteTool (ForensicVerb)

/-- A step, with those of its parameters that the executor itself reads. -/
structure PresetStep where
  stepId : String
  verb : ForensicVerb
  namespace_ : Option NamespaceName := none
  limit : Option ℕ := none
  packageNames : List String := []
  packageLimit : Option ℕ := none
  deriving DecidableEq

structure CoverageCriterion where
  criterion : String
  stepIds : List String
  deriving DecidableEq

structure PresetDefinition where
  presetId : String
  version : String
  category : CheckCategory
  steps : List PresetStep
  coverageCriteria : List CoverageCriterion
  deriving DecidableEq

def enumerateStep (stepId : String) (namespace_ : NamespaceName) (limit : ℕ) : PresetStep where
  stepId := stepId
  verb := .enumerate
  namespace_ := some namespace_
  limit := some limit

def webshellBaseline : PresetDefinition where
  presetId := "webshell-baseline"
  version := "2.5.0"
  category := .webshell
  steps :=
    [enumerateStep "web-stack" .webStack 100, enumerateStep "web-root" .webRoot 200,
      enumerateStep "web-candidate-file" .file 500, enumerateStep "web-log-sources" .logSource 200]
  coverageCriteria :=
    [⟨"web-stack-and-roots", ["web-stack", "web-root"]⟩, ⟨"candidate-files", ["web-candidate-file"]⟩,
      ⟨"web-log-sources", ["web-log-sources"]⟩]

def javaMemoryBaseline : PresetDefinition where
  presetId := "java-memory-baseline"
  version := "2.2.0"
  category := .javaMemoryShell
  steps :=
    [enumerateStep "jvm-discovery" .jvm 100, ⟨"tomcat-inventory", .probe, none, none, [], none⟩,
      ⟨"jvm-class-inspect", .probe, none, none, [], none⟩,
      ⟨"jvm-class-bytecode", .probe, none, none, [], none⟩]
  coverageCriteria :=
    [⟨"jvm-discovery", ["jvm-discovery"]⟩, ⟨"tomcat-inventory", ["tomcat-inventory"]⟩,
      ⟨"class-integrity", ["jvm-class-inspect", "jvm-class-bytecode"]⟩]

def accountBaseline : PresetDefinition where
  presetId := "account-baseline"
  version := "2.3.0"
  category := .backdoorAccount
  steps :=
    [enumerateStep "account-db" .account 500, enumerateStep "authorized-keys" .sshKey 500,
      enumerateStep "delegation-rules" .delegationRule 500,
      enumerateStep "effective-ssh-trust" .sshTrustConfig 200,
      enumerateStep "account-auth-events" .authEvent 500]
  coverageCriteria :=
    [⟨"account-db", ["account-db"]⟩, ⟨"privileged-groups", ["account-db"]⟩,
      ⟨"delegation-config", ["delegation-rules"]⟩,
      ⟨"ssh-trust", ["authorized-keys", "effective-ssh-trust"]⟩,
      ⟨"login-history", ["account-auth-events"]⟩]

def persistenceBaseline : PresetDefinition where
  presetId := "persistence-baseline"
  version := "2.1.0"
  category := .linuxPersistence
  steps :=
    [enumerateStep "cron-source" .cronEntry 500, enumerateStep "unit-source" .unit 500,
      enumerateStep "extended-source" .persistence 500, enumerateStep "ssh-persistence" .persistence 500,
      enumerateStep "shell-loader-persistence" .persistence 500]
  coverageCriteria :=
    [⟨"cron", ["cron-source"]⟩, ⟨"systemd", ["unit-source"]⟩, ⟨"ssh", ["ssh-persistence"]⟩,
      ⟨"shell-and-loader", ["shell-loader-persistence"]⟩, ⟨"extended", ["extended-source"]⟩]

def linuxTriageBaseline : PresetDefinition where
  presetId := "linux-triage-baseline"
  version := "2.5.0"
  category := .linuxIntrusionTriage
  steps :=
    [enumerateStep "process-snapshot" .process 500, enumerateStep "socket-snapshot" .socket 500,
      enumerateStep "auth-events" .authEvent 500, enumerateStep "exec-events" .execEvent 500,
      enumerateStep "kernel-modules" .module_ 500, enumerateStep "package-baseline" .package 500,
      enumerateStep "triage-file-scopes" .file 200,
      ⟨"package-owned-files", .relate, none, some 20, ["coreutils", "bash", "openssh-server", "systemd"],
        some 1⟩,
      ⟨"package-file-verify", .verify, none, some 5, [], none⟩]
  coverageCriteria :=
    [⟨"volatile-state", ["process-snapshot", "socket-snapshot"]⟩, ⟨"file-scopes", ["triage-file-scopes"]⟩,
      ⟨"event-sources", ["auth-events", "exec-events"]⟩, ⟨"kernel-modules", ["kernel-modules"]⟩,
      ⟨"package-inventory", ["package-baseline"]⟩,
      ⟨"package-verify", ["package-owned-files", "package-file-verify"]⟩]

/-- `PRESET_REGISTRY` -/
def presetRegistry : List PresetDefinition :=
  [webshellBaseline, javaMemoryBaseline, accountBaseline, persistenceBaseline, linuxTriageBaseline]

/-- The place of a category in the order the presets run in. -/
def priority : CheckCategory → ℕ
  | .linuxIntrusionTriage => 0
  | .backdoorAccount => 1
  | .linuxPersistence => 2
  | .webshell => 3
  | .javaMemoryShell => 4

def selectedPresets (categories : List CheckCategory) : List PresetDefinition :=
  (presetRegistry.filter fun preset => preset.category ∈ categories).insertionSort
    fun left right => priority left.category ≤ priority right.category

/-! ### What the registry promises -/

def stepIds (preset : PresetDefinition) : List String := preset.steps.map (·.stepId)

def criteria (preset : PresetDefinition) : List String := preset.coverageCriteria.map (·.criterion)

theorem mem_registry {categories : List CheckCategory} {preset : PresetDefinition}
    (h : preset ∈ selectedPresets categories) : preset ∈ presetRegistry := by
  rw [selectedPresets, List.mem_insertionSort] at h
  exact (List.mem_filter.1 h).1

theorem steps_ne_nil : ∀ preset ∈ presetRegistry, preset.steps ≠ [] := by
  decide

theorem nodup_criteria : ∀ preset ∈ presetRegistry, (criteria preset).Nodup := by
  decide

/-- A preset is determined by its id. -/
theorem preset_unique : ∀ preset ∈ presetRegistry, ∀ other ∈ presetRegistry,
    preset.presetId = other.presetId → preset = other := by
  decide

end HuntWarden.Presets
