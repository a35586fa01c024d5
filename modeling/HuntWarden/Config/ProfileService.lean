import HuntWarden.Config.NormalForm
import HuntWarden.Lib.Paging
import HuntWarden.Lib.Runs

/-! The profiles of the configuration: one file for each, and an index that names them and the active one.
    Every operation reads the index, changes its own copy, and writes it back, with other calls and a
    stop of the process possible at each of its awaited steps. -/

namespace HuntWarden.ProfileService

open Runs

/-! ### Profiles -/

/-- The configurations: how one is normalised for the file of a profile, written, and loaded from there. -/
structure Configs (κ : Type) where
  normalizeConfig : κ → String → Option κ
  serializeConfig : κ → String
  loadConfig : String → String → Option κ
  provider : κ → String
  model : κ → String
  localeCompare : String → String → Ordering

structure ProfileMetadata where
  profileId : String
  name : String
  createdAt : String
  updatedAt : String
  deriving DecidableEq

structure ProfileIndex where
  activeProfileId : Option String
  profiles : List ProfileMetadata
  deriving DecidableEq

structure ConfigProfileSummary where
  profileId : String
  name : String
  provider : String
  model : String
  active : Bool
  updatedAt : String

def ProfileIndex.empty : ProfileIndex := ⟨none, []⟩

def ProfileIndex.ids (index : ProfileIndex) : List String := index.profiles.map (·.profileId)

/-- `PROFILE_ID` -/
def isProfileId (text : String) : Bool :=
  let start := fun ch : Char => 'a' ≤ ch ∧ ch ≤ 'z' ∨ '0' ≤ ch ∧ ch ≤ '9'
  match text.toList with
  | [] => false
  | first :: rest => start first && rest.length ≤ 63 && rest.all fun ch => start ch || ch = '_' || ch = '-'

def isProfileName (name : String) : Bool := name ≠ "" && (Js.codeUnits name).length ≤ 80

structure SaveInput (κ : Type) where
  profileId : String
  name : String
  config : κ
  now : String

/-- The index with a saved profile, which becomes the active one when there is none. -/
def ProfileIndex.withSaved (index : ProfileIndex) (profileId name now : String) : ProfileIndex where
  activeProfileId := some (index.activeProfileId.getD profileId)
  profiles :=
    if profileId ∈ index.ids then index.profiles.map fun item =>
      if item.profileId = profileId then { item with name := name, updatedAt := now } else item
    else index.profiles ++ [⟨profileId, name, now, now⟩]

def ProfileIndex.without (index : ProfileIndex) (profileId : String) : ProfileIndex :=
  { index with profiles := index.profiles.filter (·.profileId ≠ profileId) }

/-! ### The operations, await by await -/

/-- What a call does with its next step. -/
inductive Job (κ : Type) where
  /-- `initialize`: looks for an index. -/
  | initializing (input : SaveInput κ)
  /-- There was none: writes an empty one. -/
  | create (input : SaveInput κ)
  /-- Writes the file of the profile. -/
  | write (input : SaveInput κ)
  /-- The file is written: reads the index. -/
  | listed (input : SaveInput κ)
  | storeSaved (input : SaveInput κ) (read : ProfileIndex)
  | activate (profileId : String)
  | storeActive (profileId : String) (read : ProfileIndex)
  | delete (profileId : String)
  /-- Removes the file of the profile. -/
  | unlink (profileId : String) (read : ProfileIndex)
  | storeDropped (profileId : String) (read : ProfileIndex)

inductive Event (κ : Type) where
  | save (call : ℕ) (input : SaveInput κ)
  | importFile (call : ℕ) (path text : String) (profileId name now : String)
  | activate (call : ℕ) (profileId : String)
  | delete (call : ℕ) (profileId : String)
  /-- The next step of a call ends well. -/
  | resume (call : ℕ)
  /-- `initialize` takes any error of its reading for a missing index. -/
  | misread (call : ℕ)
  /-- The next step of a call throws before it has done anything. -/
  | fail (call : ℕ)
  | crash

/-- The files by their profiles, the index, the calls under way, and the profiles that were saved to the end and
    not deleted since. -/
structure State (κ : Type) where
  files : String → Option String
  index : Option ProfileIndex
  jobs : ℕ → Option (Job κ)
  saved : List String

variable {κ : Type}

def State.initial : State κ := ⟨fun _ => none, none, fun _ => none, []⟩

/-- `readIndex`: a missing index reads as an empty one. -/
def State.readIndex (s : State κ) : ProfileIndex := s.index.getD .empty

def State.setJob (s : State κ) (call : ℕ) (job : Option (Job κ)) : State κ :=
  { s with jobs := Function.update s.jobs call job }

def State.writeIndex (s : State κ) (index : ProfileIndex) : State κ := { s with index := some index }

def profilePath (profileId : String) : String := profileId ++ ".yaml"

/-- The checks of `save` and what it writes. -/
def State.writeProfile (c : Configs κ) (s : State κ) (call : ℕ) (input : SaveInput κ) : State κ :=
  if isProfileId input.profileId && isProfileName (Js.trim input.name) then
    match c.normalizeConfig input.config (profilePath input.profileId) with
    | none => s.setJob call none
    | some config =>
      { s.setJob call (some (.listed input)) with
        files := Function.update s.files input.profileId (some (c.serializeConfig config)) }
  else s.setJob call none

/-- One awaited step of a call. -/
def State.proceed (c : Configs κ) (s : State κ) (call : ℕ) : Job κ → State κ
  | .initializing input => s.setJob call (some (if s.index.isSome then .write input else .create input))
  | .create input => (s.writeIndex .empty).setJob call (some (.write input))
  | .write input => s.writeProfile c call input
  | .listed input => s.setJob call (some (.storeSaved input s.readIndex))
  | .storeSaved input read =>
    { (s.writeIndex (read.withSaved input.profileId (Js.trim input.name) input.now)).setJob call none with
      saved := input.profileId :: s.saved }
  | .activate profileId =>
    s.setJob call (if isProfileId profileId ∧ profileId ∈ s.readIndex.ids then
      some (.storeActive profileId s.readIndex) else none)
  | .storeActive profileId read => (s.writeIndex { read with activeProfileId := some profileId }).setJob call none
  | .delete profileId =>
    s.setJob call (if s.readIndex.activeProfileId = some profileId ∨ profileId ∉ s.readIndex.ids then none
      else some (.unlink profileId s.readIndex))
  | .unlink profileId read =>
    { s.setJob call (some (.storeDropped profileId read)) with files := Function.update s.files profileId none }
  | .storeDropped profileId read =>
    { (s.writeIndex (read.without profileId)).setJob call none with saved := s.saved.filter (· ≠ profileId) }

/-- A call starts when its number is free. -/
def State.start (s : State κ) (call : ℕ) (job : Job κ) : State κ :=
  if (s.jobs call).isNone then s.setJob call (some job) else s

def step (c : Configs κ) (s : State κ) : Event κ → State κ
  | .save call input => s.start call (.initializing input)
  | .importFile call path text profileId name now =>
    match c.loadConfig text path with
    | none => s
    | some config => s.start call (.initializing ⟨profileId, name, config, now⟩)
  | .activate call profileId => s.start call (.activate profileId)
  | .delete call profileId => s.start call (.delete profileId)
  | .resume call => (s.jobs call).elim s (s.proceed c call)
  | .misread call =>
    match s.jobs call with
    | some (.initializing input) => s.setJob call (some (.create input))
    | _ => s
  | .fail call => s.setJob call none
  | .crash => { s with jobs := fun _ => none }

/-! ### What is shown -/

/-- The configuration of a profile that the index names. -/
def State.load (c : Configs κ) (s : State κ) (profileId : String) : Option κ :=
  (s.files profileId).bind fun text => c.loadConfig text (profilePath profileId)

/-- `list`, none where it throws. -/
def State.list (c : Configs κ) (s : State κ) : Option (List ConfigProfileSummary) :=
  (s.readIndex.profiles.mapM fun item => (s.load c item.profileId).map fun config =>
    (⟨item.profileId, item.name, c.provider config, c.model config,
      s.readIndex.activeProfileId = some item.profileId, item.updatedAt⟩ : ConfigProfileSummary)).map
    (Paging.sortBy fun a b => (compare b.active a.active).then (c.localeCompare b.updatedAt a.updatedAt))

/-- `get`, none where it throws. -/
def State.get (c : Configs κ) (s : State κ) (profileId : String) : Option (ProfileMetadata × κ) :=
  if isProfileId profileId then do
    let item ← s.readIndex.profiles.find? (·.profileId = profileId)
    let config ← s.load c profileId
    return (item, config)
  else none

/-- `getActive`, none where it throws. -/
def State.getActive (c : Configs κ) (s : State κ) : Option (Option (ProfileMetadata × κ)) :=
  match s.readIndex.activeProfileId with
  | none => some none
  | some profileId => (s.get c profileId).map some

/-! ### Consistency -/

/-- The file of the profile is there and can be loaded. -/
def Readable (c : Configs κ) (s : State κ) (profileId : String) : Prop := (s.load c profileId).isSome

/-- The active profile is in the index, and there is one whenever there is a profile. -/
structure ProfileIndex.Sound (index : ProfileIndex) : Prop where
  active_listed : ∀ profileId, index.activeProfileId = some profileId → profileId ∈ index.ids
  some_active : index.profiles ≠ [] → index.activeProfileId ≠ none
  valid : ∀ profileId ∈ index.ids, isProfileId profileId = true

/-- A delete has removed the file of the profile, and has yet to take it out of the index. -/
def Dropping (s : State κ) (profileId : String) : Prop :=
  ∃ call read, s.jobs call = some (.storeDropped profileId read)

/-- The index and the files fit together. -/
structure Consistent (c : Configs κ) (s : State κ) : Prop where
  index : s.readIndex.Sound
  linked : ∀ profileId ∈ s.readIndex.ids, ¬ Dropping s profileId → Readable c s profileId
  kept : ∀ profileId ∈ s.saved, profileId ∈ s.readIndex.ids
  shown : (∀ profileId, ¬ Dropping s profileId) → (s.list c).isSome = true ∧ (s.getActive c).isSome = true

/-- The index that a call has read still names the same profiles when it writes it, but for its own. A configuration
    that is written can be loaded. A file is not removed under a save of its profile. -/
def CarefulJob (c : Configs κ) (s : State κ) : Job κ → Prop
  | .create _ => s.readIndex.ids = []
  | .write input => ∀ config, c.normalizeConfig input.config (profilePath input.profileId) = some config →
      (c.loadConfig (c.serializeConfig config) (profilePath input.profileId)).isSome
  | .storeSaved input read => ∀ profileId, profileId ≠ input.profileId →
      (profileId ∈ s.readIndex.ids ↔ profileId ∈ read.ids)
  | .storeActive _ read => ∀ profileId, profileId ∈ s.readIndex.ids ↔ profileId ∈ read.ids
  | .storeDropped dropped read => ∀ profileId, profileId ≠ dropped →
      (profileId ∈ s.readIndex.ids ↔ profileId ∈ read.ids)
  | .unlink dropped _ => ∀ call input, input.profileId = dropped → s.jobs call ≠ some (.listed input) ∧
      ∀ read, s.jobs call ≠ some (.storeSaved input read)
  | _ => True

/-- Nothing stops a delete between the file and the index. -/
def Careful (c : Configs κ) (s : State κ) : Event κ → Prop
  | .resume call => ∀ job, s.jobs call = some job → CarefulJob c s job
  | .fail call => ∀ profileId read, s.jobs call ≠ some (.storeDropped profileId read)
  | .crash => ∀ profileId, ¬ Dropping s profileId
  | _ => True

/-- What a call knows of what it has read and written. -/
def Fits (c : Configs κ) (s : State κ) : Job κ → Prop
  | .listed input => isProfileId input.profileId = true ∧ Readable c s input.profileId
  | .storeSaved input read => isProfileId input.profileId = true ∧ Readable c s input.profileId ∧ read.Sound
  | .storeActive profileId read => profileId ∈ read.ids ∧ read.Sound
  | .unlink profileId read => read.activeProfileId ≠ some profileId ∧ read.Sound
  | .storeDropped profileId read => read.activeProfileId ≠ some profileId ∧ read.Sound
  | _ => True

structure Inv (c : Configs κ) (s : State κ) : Prop where
  index : s.readIndex.Sound
  linked : ∀ profileId ∈ s.readIndex.ids, Readable c s profileId ∨ Dropping s profileId
  kept : ∀ profileId ∈ s.saved, profileId ∈ s.readIndex.ids
  jobs : ∀ call job, s.jobs call = some job → Fits c s job

variable {c : Configs κ} {s : State κ} {call : ℕ} {index : ProfileIndex} {profileId : String}

/-! ### The index -/

theorem sound_empty : ProfileIndex.empty.Sound :=
  ⟨fun _ h => (Option.some_ne_none _ h.symm).elim, fun h => absurd rfl h, fun _ h => absurd h List.not_mem_nil⟩

theorem ids_withSaved {name now : String} : ∀ other, other ∈ (index.withSaved profileId name now).ids ↔
    other = profileId ∨ other ∈ index.ids := by
  intro other
  rw [ProfileIndex.withSaved, ProfileIndex.ids]
  dsimp only
  split
  · next hlisted =>
    have hsame : (index.profiles.map fun item =>
        if item.profileId = profileId then { item with name := name, updatedAt := now } else item).map
          (·.profileId) = index.ids := by
      rw [List.map_map]
      refine List.map_congr_left fun item _ => ?_
      dsimp only [Function.comp_apply]
      split <;> rfl
    rw [hsame]
    exact ⟨Or.inr, fun h => h.elim (fun heq => heq ▸ hlisted) id⟩
  · rw [List.map_append, List.mem_append, List.map_singleton, List.mem_singleton]
    exact or_comm

theorem ProfileIndex.Sound.withSaved {name now : String} (h : index.Sound) (hvalid : isProfileId profileId = true) :
    (index.withSaved profileId name now).Sound := by
  refine ⟨fun active hactive => ?_, fun _ => Option.some_ne_none _, fun other hother => ?_⟩
  · rw [ids_withSaved]
    have heq : index.activeProfileId.getD profileId = active := Option.some.inj hactive
    cases hnow : index.activeProfileId with
    | none =>
      rw [hnow] at heq
      exact Or.inl heq.symm
    | some now =>
      rw [hnow] at heq
      exact Or.inr (h.active_listed active (heq ▸ hnow))
  · rcases (ids_withSaved other).1 hother with rfl | hother
    · exact hvalid
    · exact h.valid other hother

theorem ids_without :
    ∀ other, other ∈ (index.without profileId).ids ↔ other ∈ index.ids ∧ other ≠ profileId := by
  intro other
  simp only [ProfileIndex.without, ProfileIndex.ids, List.mem_map, List.mem_filter, decide_eq_true_eq]
  constructor
  · rintro ⟨item, ⟨hitem, hne⟩, rfl⟩
    exact ⟨⟨item, hitem, rfl⟩, hne⟩
  · rintro ⟨⟨item, hitem, rfl⟩, hne⟩
    exact ⟨item, ⟨hitem, hne⟩, rfl⟩

theorem ProfileIndex.Sound.without (h : index.Sound) (hactive : index.activeProfileId ≠ some profileId) :
    (index.without profileId).Sound := by
  refine ⟨fun active hnow => ?_, fun hsome => ?_,
    fun other hother => h.valid other ((ids_without other).1 hother).1⟩
  · refine (ids_without active).2 ⟨h.active_listed active hnow, ?_⟩
    rintro rfl
    exact hactive hnow
  · refine h.some_active fun hnil => hsome ?_
    rw [ProfileIndex.without, hnil]
    rfl

theorem ProfileIndex.Sound.withActive (h : index.Sound) (hlisted : profileId ∈ index.ids) :
    ProfileIndex.Sound { index with activeProfileId := some profileId } :=
  ⟨fun _ hactive => Option.some.inj hactive ▸ hlisted, fun _ => Option.some_ne_none _, h.valid⟩

/-! ### What each step keeps -/

@[simp] theorem jobs_setJob_self {job : Option (Job κ)} : (s.setJob call job).jobs call = job :=
  Function.update_self ..

theorem jobs_setJob_of_ne {other : ℕ} {job : Option (Job κ)} (h : other ≠ call) :
    (s.setJob call job).jobs other = s.jobs other := Function.update_of_ne h ..

/-- What a call knows stays true while the file of the profile that it saves can be loaded. -/
theorem Fits.mono {s' : State κ} {job : Job κ} (h : Fits c s job)
    (hkeep : ∀ input, job = .listed input ∨ (∃ read, job = .storeSaved input read) →
      Readable c s input.profileId → Readable c s' input.profileId) : Fits c s' job := by
  cases job with
  | listed input => exact ⟨h.1, hkeep input (Or.inl rfl) h.2⟩
  | storeSaved input read => exact ⟨h.1, hkeep input (Or.inr ⟨read, rfl⟩) h.2.1, h.2.2⟩
  | _ => exact h

theorem Inv.linked_elsewhere {job : Job κ} (h : Inv c s) (hjob : s.jobs call = some job)
    (hnot : ∀ read, job ≠ .storeDropped profileId read) (hlisted : profileId ∈ s.readIndex.ids) :
    Readable c s profileId ∨
      ∃ other read, other ≠ call ∧ s.jobs other = some (.storeDropped profileId read) := by
  refine (h.linked profileId hlisted).imp_right ?_
  rintro ⟨other, read, hother⟩
  refine ⟨other, read, ?_, hother⟩
  rintro rfl
  exact hnot read (Option.some.inj (hjob.symm.trans hother))

/-- A call goes on without touching a file. -/
theorem Inv.setJob {job : Option (Job κ)} (h : Inv c s)
    (hold : ∀ profileId read, s.jobs call ≠ some (.storeDropped profileId read))
    (hnew : ∀ j, job = some j → Fits c s j) : Inv c (s.setJob call job) where
  index := h.index
  linked := by
    intro profileId hlisted
    refine (h.linked profileId hlisted).imp_right ?_
    rintro ⟨other, read, hother⟩
    refine ⟨other, read, ?_⟩
    have hne : other ≠ call := by
      rintro rfl
      exact hold profileId read hother
    rw [jobs_setJob_of_ne hne]
    exact hother
  kept := h.kept
  jobs := by
    intro other j hj
    by_cases hne : other = call
    · subst hne
      rw [jobs_setJob_self] at hj
      exact (hnew j hj).mono fun _ _ hread => hread
    · rw [jobs_setJob_of_ne hne] at hj
      exact (h.jobs other j hj).mono fun _ _ hread => hread

/-- A call writes a sound index that names what is saved, and otherwise only what has a file or is about to be
    dropped by another call. -/
theorem Inv.writeIndex {job : Option (Job κ)} {saved : List String} (h : Inv c s) (hsound : index.Sound)
    (hlinked : ∀ profileId ∈ index.ids, Readable c s profileId ∨
      ∃ other read, other ≠ call ∧ s.jobs other = some (.storeDropped profileId read))
    (hkept : ∀ profileId ∈ saved, profileId ∈ index.ids) (hnew : ∀ j, job = some j → Fits c s j) :
    Inv c { (s.writeIndex index).setJob call job with saved := saved } where
  index := hsound
  linked := by
    intro profileId hlisted
    refine (hlinked profileId hlisted).imp_right ?_
    rintro ⟨other, read, hne, hother⟩
    exact ⟨other, read, (jobs_setJob_of_ne hne).trans hother⟩
  kept := hkept
  jobs := by
    intro other j hj
    by_cases hne : other = call
    · subst hne
      exact (hnew j (jobs_setJob_self.symm.trans hj)).mono fun _ _ hread => hread
    · exact (h.jobs other j ((jobs_setJob_of_ne hne).symm.trans hj)).mono fun _ _ hread => hread

/-- Files change, but not under a call, and only with a delete under a profile of the index. -/
theorem Inv.setFiles {files : String → Option String} (h : Inv c s)
    (hlisted : ∀ profileId ∈ s.readIndex.ids, Readable c s profileId →
      Readable c { s with files := files } profileId ∨ Dropping s profileId)
    (hjobs : ∀ other job, s.jobs other = some job → Fits c s job → Fits c { s with files := files } job) :
    Inv c { s with files := files } where
  index := h.index
  linked := by
    intro profileId hin
    exact (h.linked profileId hin).elim (hlisted profileId hin) Or.inr
  kept := h.kept
  jobs := fun other job hjob => hjobs other job hjob (h.jobs other job hjob)

theorem readable_update {content : Option String} {written : String} (hne : profileId ≠ written)
    (h : Readable c s profileId) :
    Readable c { s with files := Function.update s.files written content } profileId := by
  rw [Readable, State.load]
  dsimp only
  rw [Function.update_of_ne hne]
  exact h

theorem readable_written {text : String} (h : (c.loadConfig text (profilePath profileId)).isSome) :
    Readable c { s with files := Function.update s.files profileId (some text) } profileId := by
  rw [Readable, State.load]
  dsimp only
  rw [Function.update_self]
  exact h

theorem Inv.writeProfile {input : SaveInput κ} (h : Inv c s)
    (hold : ∀ profileId read, s.jobs call ≠ some (.storeDropped profileId read))
    (hcareful : CarefulJob c s (.write input)) : Inv c (s.writeProfile c call input) := by
  rw [State.writeProfile]
  have hends : Inv c (s.setJob call none) := h.setJob hold fun _ hj => (Option.some_ne_none _ hj.symm).elim
  split
  · next hvalid =>
    split
    · exact hends
    · next config hconfig =>
      rw [Bool.and_eq_true] at hvalid
      have hwritten := readable_written (s := s) (hcareful config hconfig)
      have hread : ∀ profileId, Readable c s profileId →
          Readable c { s with
            files := Function.update s.files input.profileId (some (c.serializeConfig config)) } profileId := by
        intro profileId hread
        by_cases hne : profileId = input.profileId
        · rw [hne]
          exact hwritten
        · exact readable_update hne hread
      have hfiles := h.setFiles (fun _ _ hnow => Or.inl (hread _ hnow))
        fun _ _ _ hfits => hfits.mono fun other _ hnow => hread other.profileId hnow
      refine hfiles.setJob hold fun j hj => ?_
      cases hj
      exact ⟨hvalid.1, hwritten⟩
  · exact hends

theorem Inv.unlink {dropped : String} {read : ProfileIndex} (h : Inv c s)
    (hjob : s.jobs call = some (.unlink dropped read)) (hcareful : CarefulJob c s (.unlink dropped read)) :
    Inv c (s.proceed c call (.unlink dropped read)) := by
  have hdrops : Inv c (s.setJob call (some (.storeDropped dropped read))) := by
    refine h.setJob ?_ fun j hj => ?_
    · intro profileId read' hother
      cases hjob.symm.trans hother
    · have hfits := h.jobs call _ hjob
      cases hj
      exact hfits
  refine hdrops.setFiles (fun profileId _ hread => ?_) fun other job hother hfits => hfits.mono ?_
  · by_cases hne : profileId = dropped
    · exact Or.inr ⟨call, read, hne ▸ jobs_setJob_self⟩
    · exact Or.inl (readable_update hne hread)
  · intro input hsaves hread
    refine readable_update (fun hsame => ?_) hread
    have hne : other ≠ call := by
      rintro rfl
      rw [jobs_setJob_self] at hother
      cases hother
      rcases hsaves with hsaves | ⟨_, hsaves⟩ <;> cases hsaves
    rw [jobs_setJob_of_ne hne] at hother
    obtain ⟨hlisted, hstore⟩ := hcareful other input hsame
    rcases hsaves with rfl | ⟨read', rfl⟩
    · exact hlisted hother
    · exact hstore read' hother

/-- A call that does not drop a profile ends, or goes on with what it knows. -/
theorem Inv.proceed {job : Job κ} (h : Inv c s) (hjob : s.jobs call = some job)
    (hcareful : CarefulJob c s job) : Inv c (s.proceed c call job) := by
  have hfits := h.jobs call job hjob
  have hold : (∀ profileId read, job ≠ .storeDropped profileId read) →
      ∀ profileId read, s.jobs call ≠ some (.storeDropped profileId read) := by
    intro hnot profileId read hother
    exact hnot profileId read (Option.some.inj (hjob.symm.trans hother))
  have hnone : ∀ j : Job κ, none = some j → Fits c s j := fun _ hj => (Option.some_ne_none _ hj.symm).elim
  cases job with
  | initializing input =>
    refine h.setJob (hold (by simp)) fun j hj => ?_
    cases hj
    split <;> trivial
  | create input =>
    refine h.writeIndex sound_empty (fun _ hin => absurd hin List.not_mem_nil) (fun profileId hsaved => ?_) ?_
    · exact absurd (h.kept profileId hsaved) (List.eq_nil_iff_forall_not_mem.1 hcareful profileId)
    · intro j hj
      cases hj
      trivial
  | write input => exact h.writeProfile (hold (by simp)) hcareful
  | listed input =>
    refine h.setJob (hold (by simp)) fun j hj => ?_
    cases hj
    exact ⟨hfits.1, hfits.2, h.index⟩
  | storeSaved input read =>
    obtain ⟨hvalid, hread, hsound⟩ := hfits
    have hlisted : ∀ profileId,
        profileId ∈ (read.withSaved input.profileId (Js.trim input.name) input.now).ids ↔
          profileId = input.profileId ∨ profileId ∈ s.readIndex.ids := by
      intro profileId
      rw [ids_withSaved]
      by_cases hsame : profileId = input.profileId
      · exact iff_of_true (Or.inl hsame) (Or.inl hsame)
      · rw [hcareful profileId hsame]
    refine h.writeIndex (hsound.withSaved hvalid) (fun profileId hin => ?_) (fun profileId hin => ?_) hnone
    · rcases (hlisted profileId).1 hin with rfl | hin
      · exact Or.inl hread
      · exact h.linked_elsewhere hjob (by simp) hin
    · exact (hlisted profileId).2 ((List.mem_cons.1 hin).imp_right (h.kept profileId))
  | activate profileId =>
    refine h.setJob (hold (by simp)) fun j hj => ?_
    split at hj
    · next hin =>
      cases hj
      exact ⟨hin.2, h.index⟩
    · cases hj
  | storeActive profileId read =>
    refine h.writeIndex (hfits.2.withActive hfits.1) (fun other hin => ?_) (fun other hin => ?_) hnone
    · exact h.linked_elsewhere hjob (by simp) ((hcareful other).2 hin)
    · exact (hcareful other).1 (h.kept other hin)
  | delete profileId =>
    refine h.setJob (hold (by simp)) fun j hj => ?_
    split at hj
    · cases hj
    · next hnot =>
      cases hj
      exact ⟨fun hactive => hnot (Or.inl hactive), h.index⟩
  | unlink dropped read => exact h.unlink hjob hcareful
  | storeDropped dropped read =>
    refine h.writeIndex (hfits.2.without hfits.1) (fun profileId hin => ?_) (fun profileId hin => ?_) hnone
    · obtain ⟨hin, hne⟩ := (ids_without profileId).1 hin
      refine h.linked_elsewhere hjob (fun read' hother => ?_) ((hcareful profileId hne).2 hin)
      cases hother
      exact hne rfl
    · obtain ⟨hin, hne⟩ := List.mem_filter.1 hin
      have hne : profileId ≠ dropped := of_decide_eq_true hne
      exact (ids_without profileId).2 ⟨(hcareful profileId hne).1 (h.kept profileId hin), hne⟩

theorem Inv.start {job : Job κ} (h : Inv c s) (hfits : Fits c s job) : Inv c (s.start call job) := by
  rw [State.start]
  split
  · next hfree =>
    refine h.setJob (fun profileId read hother => ?_) fun j hj => ?_
    · rw [hother] at hfree
      cases hfree
    · cases hj
      exact hfits
  · exact h

theorem Inv.step {e : Event κ} (h : Inv c s) (hcareful : Careful c s e) : Inv c (step c s e) := by
  have hnone : ∀ j : Job κ, none = some j → Fits c s j := fun _ hj => (Option.some_ne_none _ hj.symm).elim
  cases e with
  | save call input => exact h.start trivial
  | importFile call path text profileId name now =>
    rw [ProfileService.step]
    split
    · exact h
    · exact h.start trivial
  | activate call profileId => exact h.start trivial
  | delete call profileId => exact h.start trivial
  | resume call =>
    rw [ProfileService.step]
    cases hjob : s.jobs call with
    | none => exact h
    | some job => exact h.proceed hjob (hcareful job hjob)
  | misread call =>
    rw [ProfileService.step]
    split
    · next input hjob =>
      refine h.setJob (fun profileId read hother => ?_) fun j hj => ?_
      · cases hjob.symm.trans hother
      · cases hj
        trivial
    · exact h
  | fail call => exact h.setJob hcareful hnone
  | crash =>
    refine ⟨h.index, fun profileId hin => ?_, h.kept, fun _ _ hj => (Option.some_ne_none _ hj.symm).elim⟩
    exact Or.inl ((h.linked profileId hin).resolve_right (hcareful profileId))

/-! ### What is shown -/

theorem mapM_isSome_iff {α β : Type} {f : α → Option β} {xs : List α} :
    (xs.mapM f).isSome = true ↔ ∀ x ∈ xs, (f x).isSome = true := by
  induction xs with
  | nil => simp
  | cons x xs ih =>
    rw [List.forall_mem_cons, ← ih, List.mapM_cons]
    cases f x <;> cases xs.mapM f <;> simp

/-- The list is shown exactly when the files of all profiles can be loaded. -/
theorem list_isSome_iff : (s.list c).isSome = true ↔ ∀ profileId ∈ s.readIndex.ids, Readable c s profileId := by
  rw [State.list, Option.isSome_map, mapM_isSome_iff]
  rw [ProfileIndex.ids, List.forall_mem_map]
  simp only [Option.isSome_map]
  exact Iff.rfl

theorem getActive_isSome (hsound : s.readIndex.Sound)
    (h : ∀ profileId ∈ s.readIndex.ids, Readable c s profileId) : (s.getActive c).isSome = true := by
  rw [State.getActive]
  split
  · rfl
  · next profileId hactive =>
    have hin := hsound.active_listed profileId hactive
    obtain ⟨item, hitem, hid⟩ := List.mem_map.1 hin
    obtain ⟨config, hconfig⟩ := Option.isSome_iff_exists.1 (h profileId hin)
    rw [Option.isSome_map, State.get, if_pos (hsound.valid profileId hin)]
    cases hfound : s.readIndex.profiles.find? (·.profileId = profileId) with
    | none =>
      have hmiss := List.find?_eq_none.1 hfound item hitem
      exact absurd (decide_eq_true hid) hmiss
    | some found =>
      rw [hconfig]
      rfl

theorem Inv.consistent (h : Inv c s) : Consistent c s where
  index := h.index
  linked := fun profileId hin hnot => (h.linked profileId hin).resolve_right hnot
  kept := h.kept
  shown := by
    intro hnot
    have hread : ∀ profileId ∈ s.readIndex.ids, Readable c s profileId :=
      fun profileId hin => (h.linked profileId hin).resolve_right (hnot profileId)
    exact ⟨list_isSome_iff.2 hread, getActive_isSome h.index hread⟩

theorem inv_initial : Inv c (State.initial (κ := κ)) where
  index := sound_empty
  linked := fun _ hin => absurd hin List.not_mem_nil
  kept := fun _ hin => absurd hin List.not_mem_nil
  jobs := fun _ _ hj => (Option.some_ne_none _ hj.symm).elim

/-- In a run where no call writes an index that another has changed the profiles of, every configuration that is
    written can be loaded, and no delete is stopped between the file and the index, the index and the files fit
    together all along. -/
theorem profiles_consistent (c : Configs κ) (es : List (Event κ))
    (h : Along (step c) (Careful c) State.initial es) : ∀ n, Consistent c (run (step c) State.initial (es.take n)) := by
  intro n
  have hprefix : Along (step c) (Careful c) State.initial (es.take n) := by
    rw [← List.take_append_drop n es] at h
    exact (along_append.1 h).1
  exact (run_invariant (fun _ _ hinv hcareful => hinv.step hcareful) _ _ inv_initial hprefix).consistent

/-! ### The configurations of the controller -/

/-- The configurations as they are normalised and loaded. -/
def configsOf (r : LoadConfig.Runtime) (yaml : LoadConfig.Yaml) (localeCompare : String → String → Ordering) :
    Configs Json where
  normalizeConfig input path := (LoadConfig.normalizeConfig r input path).toOption
  serializeConfig config := LoadConfig.serializeConfig yaml config
  loadConfig text path := (LoadConfig.parseConfig r yaml text path).toOption
  provider config := LoadConfig.textAt config ["model", "provider"]
  model config := LoadConfig.textAt config ["model", "model"]
  localeCompare := localeCompare

theorem toOption_eq_some {ε α : Type} {e : Except ε α} {a : α} : e.toOption = some a ↔ e = .ok a := by
  cases e <;> simp [Except.toOption]

/-- The configuration that a save writes can be loaded exactly when its custom endpoint fits once it is parsed. -/
theorem careful_write_iff {r : LoadConfig.Runtime} {yaml : LoadConfig.Yaml}
    {localeCompare : String → String → Ordering} {s : State Json} {input : SaveInput Json} {config : Json}
    (hconfig : LoadConfig.normalizeConfig r input.config (profilePath input.profileId) = .ok config)
    (hyaml : yaml.ReadsBack config) :
    CarefulJob (configsOf r yaml localeCompare) s (.write input) ↔ LoadConfig.EndpointFits r input.config := by
  have hload : (configsOf r yaml localeCompare).loadConfig ((configsOf r yaml localeCompare).serializeConfig config)
      (profilePath input.profileId) =
        (LoadConfig.normalizeConfig r config (profilePath input.profileId)).toOption := by
    rw [configsOf]
    dsimp only
    rw [LoadConfig.parseConfig, LoadConfig.serializeConfig, hyaml]
  rw [← LoadConfig.normalizeConfig_loads_iff hconfig, CarefulJob]
  constructor
  · intro h
    obtain ⟨again, hagain⟩ := Option.isSome_iff_exists.1 (h config (toOption_eq_some.2 hconfig))
    rw [hload] at hagain
    exact ⟨again, toOption_eq_some.1 hagain⟩
  · rintro ⟨again, hagain⟩ other hother
    cases hconfig.symm.trans (toOption_eq_some.1 hother)
    rw [hload, toOption_eq_some.2 hagain]
    rfl

/-! ### A save that nothing disturbs -/

/-- What a save that has come to its file leaves behind. -/
def State.savedAs (s : State κ) (call : ℕ) (input : SaveInput κ) (text : String) : State κ where
  files := Function.update s.files input.profileId (some text)
  index := some (s.readIndex.withSaved input.profileId (Js.trim input.name) input.now)
  jobs := Function.update s.jobs call none
  saved := input.profileId :: s.saved

theorem careful_resume {job : Job κ} (hjob : s.jobs call = some job) (h : CarefulJob c s job) :
    Careful c s (.resume call) := by
  intro job' hjob'
  rw [hjob] at hjob'
  cases hjob'
  exact h

theorem step_resume {job : Job κ} (hjob : s.jobs call = some job) :
    step c s (.resume call) = s.proceed c call job := by
  rw [step, hjob]
  rfl

/-- A save that has come to its file writes it, reads the index and writes that, with nothing between. -/
theorem save_undisturbed {input : SaveInput κ} {config : κ} (hjob : s.jobs call = some (.write input))
    (hvalid : (isProfileId input.profileId && isProfileName (Js.trim input.name)) = true)
    (hconfig : c.normalizeConfig input.config (profilePath input.profileId) = some config)
    (hcareful : CarefulJob c s (.write input)) :
    Along (step c) (Careful c) s (List.replicate 3 (.resume call)) ∧
      run (step c) s (List.replicate 3 (.resume call)) = s.savedAs call input (c.serializeConfig config) := by
  have hwrite : step c s (.resume call) =
      { s.setJob call (some (.listed input)) with
        files := Function.update s.files input.profileId (some (c.serializeConfig config)) } := by
    rw [step_resume hjob, State.proceed, State.writeProfile, if_pos hvalid, hconfig]
  have hlisted : (step c s (.resume call)).jobs call = some (.listed input) := by
    rw [hwrite]
    exact jobs_setJob_self
  have hread : step c (step c s (.resume call)) (.resume call) =
      { s.setJob call (some (.storeSaved input s.readIndex)) with
        files := Function.update s.files input.profileId (some (c.serializeConfig config)) } := by
    rw [step_resume hlisted, hwrite, State.proceed]
    simp [State.setJob, State.readIndex]
  have hstore : (step c (step c s (.resume call)) (.resume call)).jobs call =
      some (.storeSaved input s.readIndex) := by
    rw [hread]
    exact jobs_setJob_self
  refine ⟨⟨careful_resume hjob hcareful, careful_resume hlisted trivial, careful_resume hstore fun _ _ => ?_, trivial⟩,
    ?_⟩
  · rw [hread]
    exact Iff.rfl
  · simp only [List.replicate, run_cons, run_nil]
    rw [step_resume hstore, hread, State.proceed]
    simp [State.setJob, State.writeIndex, State.savedAs]

/-- Events that bring a save to its file, and the rest of the save. -/
theorem saved_after (events : List (Event κ)) {s' : State κ} {input : SaveInput κ} {config : κ}
    (halong : Along (step c) (Careful c) s events)
    (hrun : run (step c) s events = s'.setJob call (some (.write input)))
    (hvalid : (isProfileId input.profileId && isProfileName (Js.trim input.name)) = true)
    (hconfig : c.normalizeConfig input.config (profilePath input.profileId) = some config)
    (hloads : (c.loadConfig (c.serializeConfig config) (profilePath input.profileId)).isSome) :
    Along (step c) (Careful c) s (events ++ List.replicate 3 (.resume call)) ∧
      run (step c) s (events ++ List.replicate 3 (.resume call)) =
        s'.savedAs call input (c.serializeConfig config) := by
  have hcareful : CarefulJob c (s'.setJob call (some (.write input))) (.write input) := by
    intro other hother
    rw [hconfig] at hother
    cases hother
    exact hloads
  obtain ⟨hrest, hresult⟩ := save_undisturbed jobs_setJob_self hvalid hconfig hcareful
  rw [along_append, run_append, hrun]
  refine ⟨⟨halong, hrest⟩, hresult.trans ?_⟩
  simp [State.savedAs, State.setJob, State.readIndex]

theorem step_save {input : SaveInput κ} (hfree : s.jobs call = none) :
    step c s (.save call input) = s.setJob call (some (.initializing input)) := by
  rw [step, State.start, hfree]
  rfl

/-- The events of a save that finds an index. -/
def saveAlone (call : ℕ) (input : SaveInput κ) : List (Event κ) := .save call input :: List.replicate 4 (.resume call)

theorem saveAlone_careful {input : SaveInput κ} {config : κ} (hfree : s.jobs call = none)
    (hindex : s.index.isSome = true)
    (hvalid : (isProfileId input.profileId && isProfileName (Js.trim input.name)) = true)
    (hconfig : c.normalizeConfig input.config (profilePath input.profileId) = some config)
    (hloads : (c.loadConfig (c.serializeConfig config) (profilePath input.profileId)).isSome) :
    Along (step c) (Careful c) s (saveAlone call input) ∧
      run (step c) s (saveAlone call input) = s.savedAs call input (c.serializeConfig config) := by
  have hwrite : run (step c) s [.save call input, .resume call] = s.setJob call (some (.write input)) := by
    have hthere : (s.setJob call (some (.initializing input))).index.isSome = true := hindex
    rw [run_cons, run_cons, run_nil, step_save hfree, step_resume jobs_setJob_self, State.proceed, if_pos hthere]
    simp [State.setJob]
  refine saved_after [.save call input, .resume call] ⟨trivial, ?_, trivial⟩ hwrite hvalid hconfig hloads
  rw [step_save hfree]
  exact careful_resume jobs_setJob_self trivial

/-- The events of a save that finds no index. -/
def saveFirst (call : ℕ) (input : SaveInput κ) : List (Event κ) := .save call input :: List.replicate 5 (.resume call)

theorem saveFirst_careful {input : SaveInput κ} {config : κ} (hfree : s.jobs call = none) (hindex : s.index = none)
    (hvalid : (isProfileId input.profileId && isProfileName (Js.trim input.name)) = true)
    (hconfig : c.normalizeConfig input.config (profilePath input.profileId) = some config)
    (hloads : (c.loadConfig (c.serializeConfig config) (profilePath input.profileId)).isSome) :
    Along (step c) (Careful c) s (saveFirst call input) ∧
      run (step c) s (saveFirst call input) =
        (s.writeIndex .empty).savedAs call input (c.serializeConfig config) := by
  have hcreate : step c (step c s (.save call input)) (.resume call) = s.setJob call (some (.create input)) := by
    have hmissing : (s.setJob call (some (.initializing input))).index.isSome ≠ true := by
      rw [State.setJob, hindex]
      exact Bool.false_ne_true
    rw [step_save hfree, step_resume jobs_setJob_self, State.proceed, if_neg hmissing]
    simp [State.setJob]
  have hwrite : run (step c) s [.save call input, .resume call, .resume call] =
      (s.writeIndex .empty).setJob call (some (.write input)) := by
    rw [run_cons, run_cons, run_cons, run_nil, hcreate, step_resume jobs_setJob_self, State.proceed]
    simp [State.setJob, State.writeIndex]
  refine saved_after [.save call input, .resume call, .resume call] ⟨trivial, ?_, ?_, trivial⟩ hwrite hvalid hconfig
    hloads
  · rw [step_save hfree]
    exact careful_resume jobs_setJob_self trivial
  · rw [hcreate]
    refine careful_resume jobs_setJob_self ?_
    rw [CarefulJob, State.readIndex, State.setJob, hindex]
    rfl

/-! ### Two profiles -/

def sampleConfigs : Configs Json :=
  configsOf LoadConfig.sampleRuntime (LoadConfig.sampleYaml (LoadConfig.sampleConfigIn "/data" "https://h/a")) compare

def sampleSave (profileId : String) : SaveInput Json :=
  ⟨profileId, profileId, LoadConfig.sampleInput "https://h/a/", "2026-01-01T00:00:00.000Z"⟩

/-- Two profiles are saved one after the other. -/
def twoSaves : List (Event Json) := saveFirst 0 (sampleSave "a") ++ saveAlone 0 (sampleSave "b")

theorem normalize_first : LoadConfig.normalizeConfig LoadConfig.sampleRuntime (LoadConfig.sampleInput "https://h/a/")
    (profilePath "a") = .ok (LoadConfig.sampleConfigIn "/data" "https://h/a") := by rfl

theorem normalize_second : LoadConfig.normalizeConfig LoadConfig.sampleRuntime (LoadConfig.sampleInput "https://h/a/")
    (profilePath "b") = .ok (LoadConfig.sampleConfigIn "/data" "https://h/a") := by
  have hdir : LoadConfig.configDirOf LoadConfig.sampleRuntime (profilePath "b") =
      LoadConfig.configDirOf LoadConfig.sampleRuntime (profilePath "a") := by decide +kernel
  rw [LoadConfig.normalizeConfig_congr hdir]
  exact normalize_first

theorem endpointFits_sample :
    LoadConfig.EndpointFits LoadConfig.sampleRuntime (LoadConfig.sampleInput "https://h/a/") :=
  fun hcustom url hurl => (LoadConfig.endpointStable_sample hcustom url hurl).2

/-- What the two profiles are written with can be loaded. -/
theorem loads_sample {path : String}
    (h : LoadConfig.normalizeConfig LoadConfig.sampleRuntime (LoadConfig.sampleInput "https://h/a/") path =
      .ok (LoadConfig.sampleConfigIn "/data" "https://h/a")) :
    (sampleConfigs.loadConfig (sampleConfigs.serializeConfig (LoadConfig.sampleConfigIn "/data" "https://h/a"))
      path).isSome := by
  obtain ⟨again, hagain⟩ := (LoadConfig.normalizeConfig_loads_iff h).2 endpointFits_sample
  exact Option.isSome_iff_exists.2 ⟨again, toOption_eq_some.2 hagain⟩

def oneSaved : State Json := (State.initial.writeIndex .empty).savedAs 0 (sampleSave "a") "schemaVersion: 2"

def twoSaved : State Json := oneSaved.savedAs 0 (sampleSave "b") "schemaVersion: 2"

theorem careful_twoSaves : Along (step sampleConfigs) (Careful sampleConfigs) State.initial twoSaves ∧
    run (step sampleConfigs) State.initial twoSaves = twoSaved := by
  have hfirst : Along (step sampleConfigs) (Careful sampleConfigs) State.initial (saveFirst 0 (sampleSave "a")) ∧
      run (step sampleConfigs) State.initial (saveFirst 0 (sampleSave "a")) = oneSaved :=
    saveFirst_careful rfl rfl (by decide) (toOption_eq_some.2 normalize_first) (loads_sample normalize_first)
  have hsecond : Along (step sampleConfigs) (Careful sampleConfigs) oneSaved (saveAlone 0 (sampleSave "b")) ∧
      run (step sampleConfigs) oneSaved (saveAlone 0 (sampleSave "b")) = twoSaved :=
    saveAlone_careful rfl rfl (by decide) (toOption_eq_some.2 normalize_second) (loads_sample normalize_second)
  rw [twoSaves, along_append, run_append, hfirst.2]
  exact ⟨⟨hfirst.1, hsecond.1⟩, hsecond.2⟩

theorem twoSaves_consistent : Along (step sampleConfigs) (Careful sampleConfigs) State.initial twoSaves ∧
    Consistent sampleConfigs (run (step sampleConfigs) State.initial (twoSaves.take 11)) :=
  ⟨careful_twoSaves.1, profiles_consistent sampleConfigs twoSaves careful_twoSaves.1 11⟩

/-- The second is deleted, up to the removal of its file, where the process stops. -/
def stoppedDelete : List (Event Json) := twoSaves ++ [Event.delete 0 "b", .resume 0, .resume 0, .crash]

/-- The index goes on naming the profile. -/
theorem stopped_delete_listed : "b" ∈ (run (step sampleConfigs) State.initial stoppedDelete).readIndex.ids ∧
    (run (step sampleConfigs) State.initial stoppedDelete).files "b" = none := by
  rw [stoppedDelete, run_append, careful_twoSaves.2]
  exact ⟨by decide, rfl⟩

theorem stopped_delete_inconsistent :
    ¬ ∀ es, Consistent sampleConfigs (run (step sampleConfigs) State.initial es) := by
  intro h
  obtain ⟨hlisted, hmissing⟩ := stopped_delete_listed
  have hstopped := h stoppedDelete
  have hnone : ∀ profileId, ¬ Dropping (run (step sampleConfigs) State.initial stoppedDelete) profileId := by
    rw [stoppedDelete, show [Event.delete 0 "b", .resume 0, .resume 0, .crash] =
      [Event.delete 0 "b", .resume 0, .resume 0] ++ [.crash] from rfl, ← List.append_assoc, run_append]
    rintro profileId ⟨_, _, hjob⟩
    exact Option.some_ne_none _ hjob.symm
  have hread := list_isSome_iff.1 (hstopped.shown hnone).1 "b" hlisted
  rw [Readable, State.load, hmissing] at hread
  exact Bool.false_ne_true hread

end HuntWarden.ProfileService
