import HuntWarden.Evidence.EvidenceStore

/-! What holds of the evidence store in every run. The id of a record is given by its task, epoch and call,
    and an attempt that writes belongs to a call without a record. So a call has one record at most, a record
    keeps everything but its metadata, and its file is written by nobody any more; a reconciliation marks the
    records whose files have been changed. -/

namespace HuntWarden.EvidenceStore

open Outcome Normalizer

/-! ### The ids of calls -/

/-- A text is cut at its first colon in one way. -/
theorem cut_unique : ∀ {a a' x x' : List Char}, ':' ∉ a → ':' ∉ a' → a ++ ':' :: x = a' ++ ':' :: x' →
    a = a' ∧ x = x'
  | [], [], _, _, _, _, h => ⟨rfl, (List.cons.inj h).2⟩
  | [], ch :: _, _, _, _, ha', h => absurd ((List.cons.inj h).1 ▸ List.mem_cons_self) ha'
  | ch :: _, [], _, _, ha, _, h => absurd ((List.cons.inj h).1 ▸ List.mem_cons_self) ha
  | ch :: a, ch' :: a', x, x', ha, ha', h => by
      rw [List.cons_append, List.cons_append] at h
      obtain ⟨hch, h⟩ := List.cons.inj h
      obtain ⟨hrest, hx⟩ := cut_unique (fun hmem => ha (List.mem_cons_of_mem _ hmem))
        (fun hmem => ha' (List.mem_cons_of_mem _ hmem)) h
      exact ⟨by rw [hch, hrest], hx⟩

theorem epochText_plain (binding : EvidenceBinding) : ':' ∉ (epochText binding).toList := by
  rw [epochText]
  cases binding.epochId with
  | none => decide
  | some epochId => exact epochId.property

theorem evidenceSeed_eq (binding : EvidenceBinding) (call : String) :
    (evidenceSeed binding call).toList =
      binding.taskId.val.toList ++ ':' :: ((epochText binding).toList ++ ':' :: call.toList) := by
  have htext : evidenceSeed binding call =
      binding.taskId.val ++ ":" ++ epochText binding ++ ":" ++ call := rfl
  rw [htext]
  simp

/-- The text that the id is made of tells tasks and calls apart. -/
theorem evidenceSeed_inj {x y : EvidenceBinding} {call call' : String}
    (h : evidenceSeed x call = evidenceSeed y call') : x.taskId = y.taskId ∧ call = call' := by
  have hlist := congrArg String.toList h
  rw [evidenceSeed_eq, evidenceSeed_eq] at hlist
  obtain ⟨htask, hrest⟩ := cut_unique x.taskId.property y.taskId.property hlist
  obtain ⟨-, hcall⟩ := cut_unique (epochText_plain x) (epochText_plain y) hrest
  exact ⟨Subtype.ext (String.toList_inj.1 htask), String.toList_inj.1 hcall⟩

variable {ids : EvidenceIds} {hash : Bytes → String}

/-- The id is the one for the binding, when so many ids have been drawn. -/
def IdOf (ids : EvidenceIds) (drawn : ℕ) (binding : EvidenceBinding) (id : String) : Prop :=
  match callOf binding with
  | some call => id = ids.createDeterministicId (evidenceSeed binding call)
  | none => ∃ n < drawn, id = ids.createId n

theorem IdOf.mono {drawn drawn' : ℕ} (hle : drawn ≤ drawn') {binding : EvidenceBinding} {id : String}
    (h : IdOf ids drawn binding id) : IdOf ids drawn' binding id := by
  rw [IdOf] at h ⊢
  split at h
  · exact h
  · obtain ⟨n, hn, hid⟩ := h
    exact ⟨n, hn.trans_le hle, hid⟩

/-- Two bindings of one id are of the same call, or of none. -/
theorem IdOf.same {drawn drawn' : ℕ} {x y : EvidenceBinding} {id : String} (hx : IdOf ids drawn x id)
    (hy : IdOf ids drawn' y id) :
    SameCall x y ∨ callOf x = none ∧ callOf y = none := by
  rw [IdOf] at hx hy
  split at hx
  · rename_i call hcall
    split at hy
    · rename_i call' hcall'
      obtain ⟨htask, hsame⟩ := evidenceSeed_inj (ids.deterministic_injective (hx.symm.trans hy))
      exact Or.inl ⟨htask, by rw [hcall]; rfl, by rw [hcall, hcall', hsame]⟩
    · obtain ⟨n, -, hid⟩ := hy
      exact absurd (hid.symm.trans hx) (ids.disjoint n _)
  · rename_i hcall
    split at hy
    · obtain ⟨n, -, hid⟩ := hx
      exact absurd (hid.symm.trans hy) (ids.disjoint n _)
    · rename_i hcall'
      exact Or.inr ⟨hcall, hcall'⟩

theorem SameCall.symm {x y : EvidenceBinding} (h : SameCall x y) : SameCall y x :=
  ⟨h.1.symm, h.2.2 ▸ h.2.1, h.2.2.symm⟩

theorem newId_idOf (s : System) (binding : EvidenceBinding) :
    IdOf ids (s.drawn + 1) binding (newId ids s binding) := by
  rw [IdOf, newId]
  cases callOf binding with
  | some call => exact rfl
  | none => exact ⟨s.drawn, Nat.lt_succ_self _, rfl⟩

/-- The new id is not the id of another call. -/
theorem newId_ne {s : System} {x binding : EvidenceBinding} {id : String} (hx : IdOf ids s.drawn x id)
    (hother : ¬ SameCall x binding) : id ≠ newId ids s binding := by
  intro heq
  rcases hx.same (heq ▸ newId_idOf s binding) with hsame | ⟨hnone, hnone'⟩
  · exact hother hsame
  · rw [IdOf, hnone] at hx
    obtain ⟨n, hn, hid⟩ := hx
    rw [newId, hnone', hid] at heq
    exact absurd (ids.createId_injective heq) hn.ne

/-! ### Records -/

/-- A record that differs from an earlier one in its metadata only. -/
structure Kept (earlier later : Evidence) : Prop where
  evidenceId : later.evidenceId = earlier.evidenceId
  taskId : later.taskId = earlier.taskId
  epochId : later.epochId = earlier.epochId
  host : later.host = earlier.host
  type : later.type = earlier.type
  source : later.source = earlier.source
  tool : later.tool = earlier.tool
  toolCallId : later.toolCallId = earlier.toolCallId
  sha256 : later.sha256 = earlier.sha256
  storagePath : later.storagePath = earlier.storagePath

theorem Kept.refl (item : Evidence) : Kept item item := ⟨rfl, rfl, rfl, rfl, rfl, rfl, rfl, rfl, rfl, rfl⟩

theorem Kept.trans {x y z : Evidence} (h : Kept x y) (h' : Kept y z) : Kept x z where
  evidenceId := h'.evidenceId.trans h.evidenceId
  taskId := h'.taskId.trans h.taskId
  epochId := h'.epochId.trans h.epochId
  host := h'.host.trans h.host
  type := h'.type.trans h.type
  source := h'.source.trans h.source
  tool := h'.tool.trans h.tool
  toolCallId := h'.toolCallId.trans h.toolCallId
  sha256 := h'.sha256.trans h.sha256
  storagePath := h'.storagePath.trans h.storagePath

theorem Kept.callOf_eq {x y : Evidence} (h : Kept x y) :
    callOf y.toEvidenceBinding = callOf x.toEvidenceBinding := by
  rw [callOf, callOf, h.toolCallId]

theorem Kept.sameCall_iff {x y : Evidence} (h : Kept x y) (binding : EvidenceBinding) :
    SameCall y.toEvidenceBinding binding ↔ SameCall x.toEvidenceBinding binding := by
  rw [SameCall, SameCall, h.callOf_eq, h.taskId]

theorem Kept.idOf_iff {x y : Evidence} (h : Kept x y) {drawn : ℕ} :
    IdOf ids drawn y.toEvidenceBinding y.evidenceId ↔ IdOf ids drawn x.toEvidenceBinding x.evidenceId := by
  have hseed : ∀ call, evidenceSeed y.toEvidenceBinding call = evidenceSeed x.toEvidenceBinding call := by
    intro call
    rw [evidenceSeed, evidenceSeed, epochText, epochText, h.taskId, h.epochId]
  rw [IdOf, IdOf, h.callOf_eq, h.evidenceId]
  simp only [hseed]

theorem kept_metadata (item : Evidence) (metadata : Payload) : Kept item { item with metadata := metadata } :=
  ⟨rfl, rfl, rfl, rfl, rfl, rfl, rfl, rfl, rfl, rfl⟩

theorem reconciled_kept (files : Files) (unread : Path → String) (now : String) (item : Evidence) :
    Kept item (reconciled hash files unread now item) := by
  rw [reconciled]
  split
  · exact .refl item
  · exact kept_metadata item _

/-- The record is what the binding asked for. -/
structure Answers (input : EvidenceBinding) (item : Evidence) : Prop where
  taskId : item.taskId = input.taskId
  epochId : item.epochId = input.epochId
  host : item.host = input.host
  type : item.type = input.type
  source : item.source = input.source
  tool : item.tool = input.tool
  call : callOf item.toEvidenceBinding = callOf input

theorem truthyText_eq_some {text : Option String} {value : String} :
    Js.truthyText text = some value ↔ text = some value ∧ value ≠ "" := by
  rw [Js.truthyText, Option.filter_eq_some_iff]
  simp

/-- What `findBoundEvidence` selects is the records of the call. -/
theorem mem_calls {records : List Evidence} {input : EvidenceBinding} {call : String}
    (hcall : callOf input = some call) {item : Evidence} :
    item ∈ records.filter (fun item => item.taskId = input.taskId ∧ item.toolCallId = some call) ↔
      item ∈ records ∧ SameCall item.toEvidenceBinding input := by
  have hne : call ≠ "" := (truthyText_eq_some.1 hcall).2
  have hiff : item.toolCallId = some call ↔ callOf item.toEvidenceBinding = some call := by
    rw [callOf, truthyText_eq_some]
    exact ⟨fun h => ⟨h, hne⟩, fun h => h.1⟩
  rw [List.mem_filter, decide_eq_true_eq, hiff, SameCall, hcall]
  refine and_congr_right fun _ => and_congr_right fun _ => ⟨fun h => ⟨?_, h⟩, fun h => h.2⟩
  rw [h]; rfl

theorem findBoundEvidence_none {records : List Evidence} {input : EvidenceBinding}
    (h : findBoundEvidence records input = .ok none) :
    ∀ item ∈ records, ¬ SameCall item.toEvidenceBinding input := by
  intro item hitem hsame
  rw [findBoundEvidence] at h
  split at h
  · rename_i hcall
    have hsome := hsame.2.1
    rw [hsame.2.2, hcall] at hsome
    cases hsome
  · rename_i call hcall
    have hmem := (mem_calls hcall).2 ⟨hitem, hsame⟩
    split at h
    · rename_i hnil
      rw [hnil] at hmem
      exact absurd hmem List.not_mem_nil
    · split at h <;> cases h
    · cases h

theorem findBoundEvidence_some {records : List Evidence} {input : EvidenceBinding} {existing : Evidence}
    (h : findBoundEvidence records input = .ok (some existing)) :
    existing ∈ records ∧ Answers input existing := by
  rw [findBoundEvidence] at h
  split at h
  · cases h
  · rename_i call hcall
    split at h
    · cases h
    · rename_i found hfound
      have hlisted : found ∈ records.filter
          (fun item => item.taskId = input.taskId ∧ item.toolCallId = some call) := by
        rw [hfound]
        exact List.mem_singleton_self _
      have hmem := (mem_calls hcall).1 hlisted
      split at h
      · rename_i hsame
        cases h
        simp only [sameBinding, Bool.and_eq_true, decide_eq_true_eq] at hsame
        obtain ⟨⟨⟨⟨hepoch, hhost⟩, htype⟩, hsource⟩, htool⟩ := hsame
        exact ⟨hmem.1, hmem.2.1, hepoch, hhost, htype, hsource, htool, hmem.2.2.2⟩
      · cases h
    · cases h

/-! ### One step of an attempt -/

/-- The attempt is one that writes. -/
def Attempt.Writes (a : Attempt) : Prop := ∀ existing, a.phase ≠ .verifying existing

/-- Only files under the id of the attempt are changed, and none by an attempt that only looks. -/
def OnlyOwn (a : Attempt) (files files' : Files) : Prop :=
  ∀ path : Path, ¬ (a.Writes ∧ path.evidenceId = a.evidenceId) → files'.lookup path = files.lookup path

/-- All that a resumed attempt can do. -/
inductive Advanced (hash : Bytes → String) (a : Attempt) (files : Files) (now : String) : Effect → Prop where
  | ended {files' : Files} (hfiles : OnlyOwn a files files') : Advanced hash a files now ⟨files', none, none, none⟩
  | continued {files' : Files} {a' : Attempt} (hfiles : OnlyOwn a files files') (hinput : a'.input = a.input)
      (hid : a'.evidenceId = a.evidenceId)
      (hphase : ∀ existing, a'.phase = .verifying existing ↔ a.phase = .verifying existing) :
      Advanced hash a files now ⟨files', some a', none, none⟩
  | found {existing : Evidence} (hphase : a.phase = .verifying existing) :
      Advanced hash a files now ⟨files, none, none, some existing⟩
  | committed (hwrites : a.Writes) :
      Advanced hash a files now ⟨files, none, some (a.record hash now), some (a.record hash now)⟩

theorem OnlyOwn.refl (a : Attempt) (files : Files) : OnlyOwn a files files := fun _ _ => rfl

theorem OnlyOwn.write {a : Attempt} {files files' : Files} (h : OnlyOwn a files files') (hwrites : a.Writes)
    {path : Path} (hpath : path.evidenceId = a.evidenceId) (node : Node) :
    OnlyOwn a files (writeFile files' path node) := by
  intro other hother
  rw [writeFile, OrderedMap.lookup_upsert, if_neg, h other hother]
  rintro rfl
  exact hother ⟨hwrites, hpath⟩

theorem OnlyOwn.remove {a : Attempt} {files files' : Files} (h : OnlyOwn a files files') (hwrites : a.Writes)
    {path : Path} (hpath : path.evidenceId = a.evidenceId) :
    OnlyOwn a files (removeFile files' path) := by
  intro other hother
  rw [removeFile, OrderedMap.lookup_filter_ne, if_neg, h other hother]
  rintro rfl
  exact hother ⟨hwrites, hpath⟩

theorem OnlyOwn.append {a : Attempt} {files : Files} (hwrites : a.Writes)
    {path : Path} (hpath : path.evidenceId = a.evidenceId) (bytes : Bytes) :
    OnlyOwn a files (appendFile files path bytes) := by
  rw [appendFile]
  split
  · exact (OnlyOwn.refl a files).write hwrites hpath _
  · exact .refl a files

theorem abandon_advanced {a : Attempt} {files : Files} {pid now : String} (hwrites : a.Writes) :
    Advanced hash a files now (a.abandon files pid) := by
  refine .ended ?_
  split
  · exact .refl a files
  · exact (OnlyOwn.refl a files).remove hwrites rfl

theorem same_advanced {a : Attempt} {files : Files} {now : String} :
    Advanced hash a files now ⟨files, some a, none, none⟩ :=
  .continued (.refl a files) rfl rfl fun _ => Iff.rfl

/-- The next phase of an attempt that writes. -/
theorem next_advanced {a : Attempt} {files files' : Files} {now : String} {phase : Phase} {data : Bytes}
    (hwrites : a.Writes) (hphase : ∀ existing, phase ≠ .verifying existing) (hfiles : OnlyOwn a files files') :
    Advanced hash a files now ⟨files', some { a with phase := phase, data := data }, none, none⟩ :=
  .continued hfiles rfl rfl fun existing =>
    iff_of_false (hphase existing) (hwrites existing)

theorem writes_of_phase {a : Attempt} {phase : Phase} (h : a.phase = phase)
    (hphase : ∀ existing, phase ≠ .verifying existing) : a.Writes :=
  fun existing heq => hphase existing (h.symm.trans heq)

theorem advance_cases (a : Attempt) (files : Files) (pid now : String) (event : Event) :
    Advanced hash a files now (a.advance hash files pid now event) := by
  rw [Attempt.advance.eq_def]
  dsimp only
  split
  · -- the file of an existing record is checked
    rename_i existing hphase
    split
    · exact .found hphase
    · exact .ended (.refl a files)
  · rename_i hphase
    have hwrites := writes_of_phase hphase nofun
    split
    · exact next_advanced hwrites nofun (.refl a files)
    · split
      · exact next_advanced hwrites nofun (.refl a files)
      · exact .ended (.refl a files)
    · exact .ended (.refl a files)
  · rename_i hphase
    have hwrites := writes_of_phase hphase nofun
    split
    · exact .ended (.refl a files)
    · exact next_advanced hwrites nofun ((OnlyOwn.refl a files).write hwrites rfl _)
  · rename_i hphase
    have hwrites := writes_of_phase hphase nofun
    split
    · exact next_advanced hwrites nofun (.append hwrites rfl _)
    · exact same_advanced
  · rename_i hphase
    have hwrites := writes_of_phase hphase nofun
    split
    · exact same_advanced
    · exact .continued (.append hwrites rfl _) rfl rfl fun _ => Iff.rfl
  · rename_i hphase
    have hwrites := writes_of_phase hphase nofun
    split
    · exact same_advanced
    · split
      · exact next_advanced hwrites nofun (.refl a files)
      · exact abandon_advanced hwrites
  · rename_i hphase
    have hwrites := writes_of_phase hphase nofun
    split
    · exact abandon_advanced hwrites
    · exact abandon_advanced hwrites
    · exact next_advanced hwrites nofun
        (((OnlyOwn.refl a files).remove hwrites rfl).write hwrites rfl _)
  · rename_i hphase
    have hwrites := writes_of_phase hphase nofun
    split
    · exact .committed hwrites
    · exact abandon_advanced hwrites
  · rename_i hphase
    exact abandon_advanced (writes_of_phase hphase nofun)
  · rename_i hphase
    exact abandon_advanced (writes_of_phase hphase nofun)
  · rename_i hphase
    exact abandon_advanced (writes_of_phase hphase nofun)
  · exact .ended (.refl a files)
  · exact same_advanced

theorem record_answers (a : Attempt) (now : String) :
    Answers a.input.toEvidenceBinding (a.record hash now) := by
  refine ⟨rfl, rfl, rfl, rfl, rfl, rfl, ?_⟩
  change Js.truthyText (Js.truthyText a.input.toolCallId) = Js.truthyText a.input.toolCallId
  simp [Js.truthyText]

/-! ### The invariant -/

/-- Every record of before is there, with the same in it but for its metadata. -/
def Extends (before after : Table Evidence.evidenceId) : Prop :=
  ∀ item ∈ before.rows, ∃ item' ∈ after.rows, Kept item item'

theorem Extends.refl (records : Table Evidence.evidenceId) : Extends records records :=
  fun item hitem => ⟨item, hitem, .refl item⟩

theorem Extends.trans {x y z : Table Evidence.evidenceId} (h : Extends x y) (h' : Extends y z) :
    Extends x z := by
  intro item hitem
  obtain ⟨next, hnext, hkept⟩ := h item hitem
  obtain ⟨last, hlast, hkept'⟩ := h' next hnext
  exact ⟨last, hlast, hkept.trans hkept'⟩

/-- The records, taken alone: each has the id of its binding, and a call has one at most. -/
structure Keyed (ids : EvidenceIds) (drawn : ℕ) (records : Table Evidence.evidenceId) : Prop where
  named : ∀ item ∈ records.rows, IdOf ids drawn item.toEvidenceBinding item.evidenceId
  single : ∀ item ∈ records.rows, ∀ other ∈ records.rows,
    SameCall item.toEvidenceBinding other.toEvidenceBinding → item = other

/-- The attempt belongs to a call without a record, and has the id for it. -/
structure Ahead (ids : EvidenceIds) (s : System) (a : Attempt) : Prop where
  named : IdOf ids s.drawn a.input.toEvidenceBinding a.evidenceId
  unused : ∀ item ∈ s.records.rows, item.evidenceId ≠ a.evidenceId
  uncalled : ∀ item ∈ s.records.rows, ¬ SameCall item.toEvidenceBinding a.input.toEvidenceBinding

/-- Two attempts are of different calls, and do not write under one id. -/
def Separate (a b : Attempt) : Prop :=
  ¬ SameCall a.input.toEvidenceBinding b.input.toEvidenceBinding ∧
    (a.Writes → b.Writes → a.evidenceId ≠ b.evidenceId)

/-- What is returned answers the call, and is on record. -/
def OnRecord (records : Table Evidence.evidenceId) (binding : EvidenceBinding) (item : Evidence) : Prop :=
  Answers binding item ∧ ∃ item' ∈ records.rows, Kept item item'

structure Sound (ids : EvidenceIds) (s : System) : Prop where
  keyed : Keyed ids s.drawn s.records
  ahead : ∀ a ∈ s.inFlight, a.Writes → Ahead ids s a
  separate : s.inFlight.Pairwise Separate
  verifying : ∀ a ∈ s.inFlight, ∀ existing, a.phase = .verifying existing →
    OnRecord s.records a.input.toEvidenceBinding existing
  returned : ∀ entry ∈ s.returned, OnRecord s.records entry.1 entry.2

theorem OnRecord.extends {x y : Table Evidence.evidenceId} {binding : EvidenceBinding} {item : Evidence}
    (h : OnRecord x binding item) (hextends : Extends x y) : OnRecord y binding item := by
  obtain ⟨hanswers, next, hnext, hkept⟩ := h
  obtain ⟨last, hlast, hkept'⟩ := hextends next hnext
  exact ⟨hanswers, last, hlast, hkept.trans hkept'⟩

theorem Keyed.mono {drawn drawn' : ℕ} {records : Table Evidence.evidenceId} (h : Keyed ids drawn records)
    (hle : drawn ≤ drawn') : Keyed ids drawn' records :=
  ⟨fun item hitem => (h.named item hitem).mono hle, h.single⟩

/-! Writing a record. -/

/-- The same records, but for the metadata. -/
structure Rewritten (before after : Table Evidence.evidenceId) : Prop where
  extends_ : Extends before after
  back : ∀ later ∈ after.rows, ∃ earlier ∈ before.rows, Kept earlier later

theorem Rewritten.trans {x y z : Table Evidence.evidenceId} (h : Rewritten x y) (h' : Rewritten y z) :
    Rewritten x z := by
  refine ⟨h.extends_.trans h'.extends_, fun later hlater => ?_⟩
  obtain ⟨next, hnext, hkept⟩ := h'.back later hlater
  obtain ⟨earlier, hearlier, hkept'⟩ := h.back next hnext
  exact ⟨earlier, hearlier, hkept'.trans hkept⟩

theorem Rewritten.keyed {before after : Table Evidence.evidenceId} (h : Rewritten before after) {drawn : ℕ}
    (hkeyed : Keyed ids drawn before) : Keyed ids drawn after := by
  refine ⟨fun later hlater => ?_, fun later hlater last hlast hsame => ?_⟩
  · obtain ⟨earlier, hearlier, hkept⟩ := h.back later hlater
    exact hkept.idOf_iff.2 (hkeyed.named earlier hearlier)
  · obtain ⟨earlier, hearlier, hkept⟩ := h.back later hlater
    obtain ⟨first, hfirst, hkept'⟩ := h.back last hlast
    have hsame' := (hkept'.sameCall_iff _).1 ((hkept.sameCall_iff _).1 hsame).symm
    obtain rfl := hkeyed.single _ hfirst _ hearlier hsame'
    exact after.eq_of_key hlater hlast (hkept.evidenceId.trans hkept'.evidenceId.symm)

/-- A record that is written back with other metadata. -/
theorem put_back {records : Table Evidence.evidenceId} {item item' : Evidence}
    (hitem : item ∈ records.rows) (hkept : Kept item item') : Rewritten records (records.put item') := by
  have hback : ∀ later ∈ (records.put item').rows, ∃ earlier ∈ records.rows, Kept earlier later := by
    intro later hlater
    rcases Table.mem_put.1 hlater with rfl | ⟨hlater, -⟩
    · exact ⟨item, hitem, hkept⟩
    · exact ⟨later, hlater, .refl later⟩
  refine ⟨fun other hother => ?_, hback⟩
  by_cases hid : other.evidenceId = item'.evidenceId
  · obtain rfl := records.eq_of_key hother hitem (hid.trans hkept.evidenceId)
    exact ⟨item', Table.mem_put.2 (Or.inl rfl), hkept⟩
  · exact ⟨other, Table.mem_put.2 (Or.inr ⟨hother, hid⟩), .refl other⟩

/-- A record of a call that has none. -/
theorem put_new {records : Table Evidence.evidenceId} {item : Evidence}
    (hunused : ∀ other ∈ records.rows, other.evidenceId ≠ item.evidenceId) :
    Extends records (records.put item) ∧
      ∀ later ∈ (records.put item).rows, later = item ∨ later ∈ records.rows := by
  refine ⟨fun other hother => ?_, fun later hlater => (Table.mem_put.1 hlater).imp_right fun h => h.1⟩
  exact ⟨other, Table.mem_put.2 (Or.inr ⟨hother, hunused other hother⟩), .refl other⟩

theorem keyed_put_new {records : Table Evidence.evidenceId} {drawn : ℕ} {item : Evidence}
    (hkeyed : Keyed ids drawn records) (hnamed : IdOf ids drawn item.toEvidenceBinding item.evidenceId)
    (huncalled : ∀ other ∈ records.rows, ¬ SameCall other.toEvidenceBinding item.toEvidenceBinding) :
    Keyed ids drawn (records.put item) := by
  have hcases : ∀ later ∈ (records.put item).rows, later = item ∨ later ∈ records.rows :=
    fun later hlater => (Table.mem_put.1 hlater).imp_right fun h => h.1
  refine ⟨fun later hlater => ?_, fun later hlater last hlast hsame => ?_⟩
  · rcases hcases later hlater with rfl | hold
    · exact hnamed
    · exact hkeyed.named later hold
  · rcases hcases later hlater with rfl | hold
    · rcases hcases last hlast with rfl | hold'
      · rfl
      · exact absurd hsame.symm (huncalled last hold')
    · rcases hcases last hlast with rfl | hold'
      · exact absurd hsame (huncalled later hold)
      · exact hkeyed.single later hold last hold' hsame

/-- Records that are written back one by one. -/
theorem putAll_rewritten {f : Evidence → Evidence} (hf : ∀ item, Kept item (f item)) :
    ∀ {items : List Evidence} {records : Table Evidence.evidenceId}, (∀ item ∈ items, item ∈ records.rows) →
      (items.map (·.evidenceId)).Nodup → Rewritten records (putAll records (items.map f))
  | [], records, _, _ => ⟨.refl records, fun later hlater => ⟨later, hlater, .refl later⟩⟩
  | item :: rest, records, hitems, hnodup => by
      rw [List.map_cons, List.nodup_cons] at hnodup
      have hput : Rewritten records (records.put (f item)) :=
        put_back (hitems item List.mem_cons_self) (hf item)
      refine hput.trans (putAll_rewritten hf (fun other hother => ?_) hnodup.2)
      refine Table.mem_put.2 (Or.inr ⟨hitems other (List.mem_cons_of_mem _ hother), fun hid => ?_⟩)
      exact hnodup.1 (List.mem_map.2 ⟨other, hother, hid.trans (hf item).evidenceId⟩)

/-! ### What a step preserves -/

section

variable {s : System}

theorem empty_sound : Sound ids .empty where
  keyed := ⟨fun _ h => absurd h List.not_mem_nil, fun _ h => absurd h List.not_mem_nil⟩
  ahead _ h := absurd h List.not_mem_nil
  separate := .nil
  verifying _ h := absurd h List.not_mem_nil
  returned _ h := absurd h List.not_mem_nil

theorem Sound.rewrite (hs : Sound ids s) {records : Table Evidence.evidenceId}
    (h : Rewritten s.records records) : Sound ids { s with records := records } where
  keyed := h.keyed hs.keyed
  ahead a ha hwrites := by
    obtain ⟨hnamed, hunused, huncalled⟩ := hs.ahead a ha hwrites
    refine ⟨hnamed, fun item hitem => ?_, fun item hitem hsame => ?_⟩
    · obtain ⟨earlier, hearlier, hkept⟩ := h.back item hitem
      rw [hkept.evidenceId]
      exact hunused earlier hearlier
    · obtain ⟨earlier, hearlier, hkept⟩ := h.back item hitem
      exact huncalled earlier hearlier ((hkept.sameCall_iff _).1 hsame)
  separate := hs.separate
  verifying a ha existing hphase := (hs.verifying a ha existing hphase).extends h.extends_
  returned entry hentry := (hs.returned entry hentry).extends h.extends_

/-- A record of a call that has neither a record nor a writing attempt. -/
theorem Sound.add (hs : Sound ids s) {item : Evidence}
    (hnamed : IdOf ids s.drawn item.toEvidenceBinding item.evidenceId)
    (hunused : ∀ other ∈ s.records.rows, other.evidenceId ≠ item.evidenceId)
    (huncalled : ∀ other ∈ s.records.rows, ¬ SameCall other.toEvidenceBinding item.toEvidenceBinding)
    (hclear : ∀ a ∈ s.inFlight, a.Writes → item.evidenceId ≠ a.evidenceId ∧
      ¬ SameCall item.toEvidenceBinding a.input.toEvidenceBinding) :
    Sound ids { s with records := s.records.put item } where
  keyed := keyed_put_new hs.keyed hnamed huncalled
  ahead a ha hwrites := by
    obtain ⟨hname, hfree, hnone⟩ := hs.ahead a ha hwrites
    refine ⟨hname, fun later hlater => ?_, fun later hlater => ?_⟩
    · rcases (put_new hunused).2 later hlater with rfl | hold
      · exact (hclear a ha hwrites).1
      · exact hfree later hold
    · rcases (put_new hunused).2 later hlater with rfl | hold
      · exact (hclear a ha hwrites).2
      · exact hnone later hold
  separate := hs.separate
  verifying a ha existing hphase := (hs.verifying a ha existing hphase).extends (put_new hunused).1
  returned entry hentry := (hs.returned entry hentry).extends (put_new hunused).1

theorem Sound.files (hs : Sound ids s) (files : Files) : Sound ids { s with files := files } :=
  ⟨hs.keyed, fun a ha hwrites => ⟨(hs.ahead a ha hwrites).named, (hs.ahead a ha hwrites).unused,
    (hs.ahead a ha hwrites).uncalled⟩, hs.separate, hs.verifying, hs.returned⟩

theorem Sound.give (hs : Sound ids s) {entries : List (EvidenceBinding × Evidence)}
    (h : ∀ entry ∈ entries, OnRecord s.records entry.1 entry.2) :
    Sound ids { s with returned := s.returned ++ entries } :=
  ⟨hs.keyed, fun a ha hwrites => ⟨(hs.ahead a ha hwrites).named, (hs.ahead a ha hwrites).unused,
    (hs.ahead a ha hwrites).uncalled⟩, hs.separate, hs.verifying, fun entry hentry =>
      (List.mem_append.1 hentry).elim (hs.returned entry) (h entry)⟩

/-- Fewer attempts, and perhaps a new process. -/
theorem Sound.without (hs : Sound ids s) {inFlight : List Attempt} (h : inFlight.Sublist s.inFlight)
    (pid : String) : Sound ids { s with inFlight := inFlight, pid := pid } :=
  ⟨hs.keyed, fun a ha hwrites => ⟨(hs.ahead a (h.subset ha) hwrites).named,
    (hs.ahead a (h.subset ha) hwrites).unused, (hs.ahead a (h.subset ha) hwrites).uncalled⟩,
    hs.separate.sublist h, fun a ha => hs.verifying a (h.subset ha), hs.returned⟩

/-- One more id drawn. -/
theorem Sound.draw (hs : Sound ids s) : Sound ids { s with drawn := s.drawn + 1 } :=
  ⟨hs.keyed.mono (Nat.le_succ _), fun a ha hwrites => ⟨(hs.ahead a ha hwrites).named.mono (Nat.le_succ _),
    (hs.ahead a ha hwrites).unused, (hs.ahead a ha hwrites).uncalled⟩, hs.separate, hs.verifying,
    hs.returned⟩

end

/-! ### The steps -/

section

variable {s : System}

theorem not_underWay {binding : EvidenceBinding} (h : ¬ underWay s binding = true) :
    ∀ a ∈ s.inFlight, ¬ SameCall a.input.toEvidenceBinding binding := by
  intro a ha hsame
  exact h (List.any_eq_true.2 ⟨a, ha, decide_eq_true hsame⟩)

/-- The attempt of a call that has none under way. -/
theorem Sound.start (hs : Sound ids s) {a : Attempt}
    (hclear : ∀ b ∈ s.inFlight, Separate b a)
    (hahead : a.Writes → Ahead ids { s with drawn := s.drawn + 1 } a)
    (hverifying : ∀ existing, a.phase = .verifying existing →
      OnRecord s.records a.input.toEvidenceBinding existing) : Sound ids (s.start a) where
  keyed := hs.draw.keyed
  ahead b hb hwrites := by
    rcases List.mem_append.1 hb with hb | hb
    · obtain ⟨hnamed, hunused, huncalled⟩ := hs.draw.ahead b hb hwrites
      exact ⟨hnamed, hunused, huncalled⟩
    · obtain rfl := List.mem_singleton.1 hb
      obtain ⟨hnamed, hunused, huncalled⟩ := hahead hwrites
      exact ⟨hnamed, hunused, huncalled⟩
  separate := List.pairwise_append.2 ⟨hs.separate, List.pairwise_singleton _ _, fun b hb c hc =>
    List.mem_singleton.1 hc ▸ hclear b hb⟩
  verifying b hb existing hphase := by
    rcases List.mem_append.1 hb with hb | hb
    · exact hs.verifying b hb existing hphase
    · obtain rfl := List.mem_singleton.1 hb
      exact hverifying existing hphase
  returned := hs.returned

/-- The new id is for a call without a record, and for no attempt that writes. -/
theorem Sound.newId_ahead (hs : Sound ids s) {binding : EvidenceBinding}
    (hnone : ∀ item ∈ s.records.rows, ¬ SameCall item.toEvidenceBinding binding) :
    ∀ item ∈ s.records.rows, item.evidenceId ≠ newId ids s binding :=
  fun item hitem => newId_ne (hs.keyed.named item hitem) (hnone item hitem)

theorem Sound.begins (hs : Sound ids s) {input : PutInput} {data : Bytes} {phase : Phase}
    (hfree : ∀ a ∈ s.inFlight, ¬ SameCall a.input.toEvidenceBinding input.toEvidenceBinding)
    (hnone : ∀ item ∈ s.records.rows, ¬ SameCall item.toEvidenceBinding input.toEvidenceBinding)
    (hphase : ∀ existing, phase ≠ .verifying existing) :
    Sound ids (s.start ⟨input, newId ids s input.toEvidenceBinding, data, phase⟩) := by
  refine hs.start (fun b hb => ⟨hfree b hb, fun hwrites _ => ?_⟩) (fun _ => ?_) fun existing heq => ?_
  · exact newId_ne (hs.ahead b hb hwrites).named (hfree b hb)
  · exact ⟨newId_idOf s _, hs.newId_ahead hnone, hnone⟩
  · exact absurd heq (hphase existing)

theorem begin_sound (hs : Sound ids s) (input : PutInput) : Sound ids (begin_ ids s input) := by
  rw [begin_]
  split
  · exact hs
  · rename_i hfree
    have hfree := not_underWay hfree
    split
    · exact hs
    · rename_i existing hfound
      obtain ⟨hmem, hanswers⟩ := findBoundEvidence_some hfound
      refine hs.start (fun b hb => ⟨hfree b hb, fun _ hwrites => absurd rfl (hwrites existing)⟩)
        (fun hwrites => absurd rfl (hwrites existing)) fun other heq => ?_
      cases heq
      exact ⟨hanswers, existing, hmem, .refl existing⟩
    · rename_i hfound
      dsimp only
      split
      · exact hs.begins hfree (findBoundEvidence_none hfound) nofun
      · exact hs.begins hfree (findBoundEvidence_none hfound) nofun

/-! An attempt is resumed. -/

theorem Separate.symm {a b : Attempt} (h : Separate a b) : Separate b a :=
  ⟨fun hsame => h.1 hsame.symm, fun hb ha heq => h.2 ha hb heq.symm⟩

/-- An entry of a list, with what is before and behind it. -/
theorem split_at {α : Type} : ∀ {items : List α} {position : ℕ} {a : α}, items[position]? = some a →
    ∃ before after, items = before ++ a :: after ∧ items.eraseIdx position = before ++ after ∧
      ∀ b, items.set position b = before ++ b :: after
  | [], _, _, h => by cases h
  | x :: rest, 0, a, h => by
      cases h
      exact ⟨[], rest, rfl, rfl, fun _ => rfl⟩
  | x :: rest, position + 1, a, h => by
      have hrest : rest[position]? = some a := h
      obtain ⟨before, after, hitems, herase, hset⟩ := split_at hrest
      refine ⟨x :: before, after, by rw [hitems]; rfl, by rw [List.eraseIdx_cons_succ, herase]; rfl, fun b => ?_⟩
      rw [List.set_cons_succ, hset]
      rfl

/-- The attempt goes on under the same call and id. -/
theorem Sound.continue (hs : Sound ids s) {position : ℕ} {a a' : Attempt}
    (hget : s.inFlight[position]? = some a) (hinput : a'.input = a.input)
    (hid : a'.evidenceId = a.evidenceId)
    (hphase : ∀ existing, a'.phase = .verifying existing ↔ a.phase = .verifying existing) :
    Sound ids { s with inFlight := s.inFlight.set position a' } := by
  obtain ⟨before, after, hitems, -, hset⟩ := split_at hget
  have hwrites : a'.Writes → a.Writes := fun h existing heq => h existing ((hphase existing).2 heq)
  have ha : a ∈ s.inFlight := List.mem_of_getElem? hget
  have hmem : ∀ {b}, b ∈ s.inFlight.set position a' → b = a' ∨ b ∈ s.inFlight := fun hb =>
    (List.mem_or_eq_of_mem_set hb).symm
  have hseparate : ∀ {b}, (Separate b a → Separate b a') ∧ (Separate a b → Separate a' b) := by
    intro b
    constructor
    · rintro ⟨hcall, hids⟩
      exact ⟨by rwa [hinput], fun hb h => by rw [hid]; exact hids hb (hwrites h)⟩
    · rintro ⟨hcall, hids⟩
      exact ⟨by rwa [hinput], fun h hb => by rw [hid]; exact hids (hwrites h) hb⟩
  refine ⟨hs.keyed, fun b hb hbwrites => ?_, ?_, fun b hb existing heq => ?_, hs.returned⟩
  · rcases hmem hb with rfl | hb
    · obtain ⟨hnamed, hunused, huncalled⟩ := hs.ahead a ha (hwrites hbwrites)
      exact ⟨by rw [hinput, hid]; exact hnamed, by rw [hid]; exact hunused, by rw [hinput]; exact huncalled⟩
    · exact ⟨(hs.ahead b hb hbwrites).named, (hs.ahead b hb hbwrites).unused,
        (hs.ahead b hb hbwrites).uncalled⟩
  · have hpairs := hs.separate
    rw [hitems, List.pairwise_append, List.pairwise_cons] at hpairs
    obtain ⟨hbefore, ⟨hafter, hrest⟩, hacross⟩ := hpairs
    change (s.inFlight.set position a').Pairwise Separate
    rw [hset, List.pairwise_append, List.pairwise_cons]
    refine ⟨hbefore, ⟨fun b hb => hseparate.2 (hafter b hb), hrest⟩, fun b hb c hc => ?_⟩
    rcases List.mem_cons.1 hc with rfl | hc
    · exact hseparate.1 (hacross b hb a List.mem_cons_self)
    · exact hacross b hb c (List.mem_cons_of_mem _ hc)
  · rcases hmem hb with rfl | hb
    · rw [hinput]
      exact hs.verifying a ha existing ((hphase existing).1 heq)
    · exact hs.verifying b hb existing heq

/-- What is left when an attempt ends is apart from it. -/
theorem Sound.apart (hs : Sound ids s) {position : ℕ} {a : Attempt}
    (hget : s.inFlight[position]? = some a) : ∀ b ∈ s.inFlight.eraseIdx position, Separate a b := by
  obtain ⟨before, after, hitems, herase, -⟩ := split_at hget
  have hpairs := hs.separate
  rw [hitems, List.pairwise_append, List.pairwise_cons] at hpairs
  obtain ⟨-, ⟨hafter, -⟩, hacross⟩ := hpairs
  intro b hb
  rw [herase] at hb
  rcases List.mem_append.1 hb with hb | hb
  · exact (hacross b hb a List.mem_cons_self).symm
  · exact hafter b hb

theorem resume_sound (hs : Sound ids s) {position : ℕ} {a : Attempt} {now : String} {effect : Effect}
    (hget : s.inFlight[position]? = some a) (hstep : Advanced hash a s.files now effect) :
    Sound ids (resume s position a effect) := by
  have ha : a ∈ s.inFlight := List.mem_of_getElem? hget
  have hgone := hs.without (List.eraseIdx_sublist s.inFlight position) s.pid
  cases hstep with
  | @ended files' hfiles => exact (hgone.files files').give fun _ h => absurd h List.not_mem_nil
  | @continued files' a' hfiles hinput hid hphase =>
    exact ((hs.continue hget hinput hid hphase).files files').give fun _ h => absurd h List.not_mem_nil
  | found hphase =>
    have hfound := hs.verifying a ha _ hphase
    refine hgone.give fun entry hentry => ?_
    obtain rfl := List.mem_singleton.1 hentry
    exact hfound
  | committed hwrites =>
    have hahead := hs.ahead a ha hwrites
    have hanswers := @record_answers hash a now
    have hcall : ∀ binding, SameCall binding (a.record hash now).toEvidenceBinding ↔
        SameCall binding a.input.toEvidenceBinding := by
      intro binding
      rw [SameCall, SameCall, hanswers.call, hanswers.taskId]
    have hnamed : IdOf ids s.drawn (a.record hash now).toEvidenceBinding (a.record hash now).evidenceId := by
      have h := hahead.named
      rw [IdOf] at h ⊢
      rw [hanswers.call]
      exact h
    have hadd := hgone.add hnamed hahead.unused
      (fun other hother hsame => hahead.uncalled other hother ((hcall _).1 hsame)) fun b hb hbwrites => by
        have hseparate := hs.apart hget b hb
        exact ⟨hseparate.2 hwrites hbwrites, fun hsame => hseparate.1 ((hcall _).1 hsame.symm).symm⟩
    refine hadd.give fun entry hentry => ?_
    obtain rfl := List.mem_singleton.1 hentry
    exact ⟨hanswers, _, Table.mem_put.2 (Or.inl rfl), .refl _⟩

end

section

variable {s : System}

theorem structured_sound (hs : Sound ids s) (input : StructuredInput) : Sound ids (putStructured ids s input) := by
  rw [putStructured]
  split
  · exact hs
  · rename_i hfree
    have hfree := not_underWay hfree
    split
    · exact hs
    · rename_i existing hfound
      obtain ⟨hmem, hanswers⟩ := findBoundEvidence_some hfound
      split
      · refine hs.give fun entry hentry => ?_
        obtain rfl := List.mem_singleton.1 hentry
        exact ⟨hanswers, existing, hmem, .refl existing⟩
      · exact hs
    · rename_i hfound
      have hnone := findBoundEvidence_none hfound
      have hnamed : IdOf ids (s.drawn + 1) (structuredRecord ids s input).toEvidenceBinding
          (structuredRecord ids s input).evidenceId := newId_idOf s input.toEvidenceBinding
      have hclear : ∀ a ∈ s.inFlight, a.Writes →
          (structuredRecord ids s input).evidenceId ≠ a.evidenceId ∧
            ¬ SameCall (structuredRecord ids s input).toEvidenceBinding a.input.toEvidenceBinding :=
        fun a ha hwrites => ⟨(newId_ne (hs.ahead a ha hwrites).named (hfree a ha)).symm,
          fun hsame => hfree a ha hsame.symm⟩
      have hadd := hs.draw.add hnamed (hs.newId_ahead hnone) hnone hclear
      refine hadd.give fun entry hentry => ?_
      obtain rfl := List.mem_singleton.1 hentry
      exact ⟨⟨rfl, rfl, rfl, rfl, rfl, rfl, rfl⟩, _, Table.mem_put.2 (Or.inl rfl), .refl _⟩

theorem mem_listEvidence {taskId : DrawnId} {item : Evidence} :
    item ∈ listEvidence s taskId ↔ item ∈ s.records.rows ∧ item.taskId = taskId := by
  rw [listEvidence, List.mem_filter, decide_eq_true_eq]

theorem nodup_listEvidence (s : System) (taskId : DrawnId) :
    ((listEvidence s taskId).map (·.evidenceId)).Nodup :=
  (List.filter_sublist.map _).nodup s.records.keyed

theorem reconcile_rewritten (s : System) (taskId : DrawnId) (unread : Path → String) (now : String) (cut : Option ℕ) :
    Rewritten s.records (reconcileTask hash s taskId unread now cut).records := by
  rw [reconcileTask.eq_def]
  refine putAll_rewritten (reconciled_kept s.files unread now) (fun item hitem => ?_) ?_
  · have hmem : item ∈ listEvidence s taskId := by
      cases cut with
      | none => exact hitem
      | some n => exact List.mem_of_mem_take hitem
    exact (mem_listEvidence.1 hmem).1
  · cases cut with
    | none => exact nodup_listEvidence s taskId
    | some n => exact ((List.take_sublist n _).map _).nodup (nodup_listEvidence s taskId)

theorem step_sound (hs : Sound ids s) (op : Op) : Sound ids (step ids hash s op) := by
  cases op with
  | begin input => exact begin_sound hs input
  | advance position now event =>
    rw [step]
    split
    · rename_i a hget
      exact resume_sound hs hget (advance_cases a s.files s.pid now event)
    · exact hs
  | structured input => exact structured_sound hs input
  | annotate evidenceId added =>
    rw [step]
    split
    · rename_i item hitem
      exact hs.rewrite (put_back (Table.get?_eq_some.1 hitem).1 (kept_metadata item _))
    · exact hs
  | reconcile taskId unread now cut => exact hs.rewrite (reconcile_rewritten s taskId unread now cut)
  | crash pid => exact hs.without (List.nil_sublist _) pid
  | tamper path node => cases node <;> exact hs.files _

/-- No step loses a record, or changes more of it than its metadata. -/
theorem step_extends (hs : Sound ids s) (op : Op) : Extends s.records (step ids hash s op).records := by
  cases op with
  | begin input =>
    rw [step, begin_]
    split
    · exact .refl _
    · split
      · exact .refl _
      · exact .refl _
      · dsimp only
        split <;> exact .refl _
  | advance position now event =>
    rw [step]
    split
    · rename_i a hget
      have ha : a ∈ s.inFlight := List.mem_of_getElem? hget
      have hstep := @advance_cases hash a s.files s.pid now event
      generalize a.advance hash s.files s.pid now event = effect at hstep
      cases hstep with
      | committed hwrites => exact (put_new (hs.ahead a ha hwrites).unused).1
      | _ => exact .refl _
    · exact .refl _
  | structured input =>
    rw [step, putStructured]
    split
    · exact .refl _
    · split
      · exact .refl _
      · split <;> exact .refl _
      · rename_i hfound
        exact (put_new (hs.newId_ahead (findBoundEvidence_none hfound))).1
  | annotate evidenceId added =>
    rw [step]
    split
    · rename_i item hitem
      exact (put_back (Table.get?_eq_some.1 hitem).1 (kept_metadata item _)).extends_
    · exact .refl _
  | reconcile taskId unread now cut => exact (reconcile_rewritten s taskId unread now cut).extends_
  | crash pid => exact .refl _
  | tamper path node => cases node <;> exact .refl _

/-! ### The files of records -/

/-- The operation changes the file from outside. -/
def Tampers (path : Path) : Op → Prop
  | .tamper other _ => other = path
  | _ => False

instance (path : Path) (op : Op) : Decidable (Tampers path op) := by
  cases op <;> unfold Tampers <;> infer_instance

/-- The path is the one under the id of the record, as every artifact that the store writes. -/
def OwnPath (item : Evidence) (path : Path) : Prop :=
  item.storagePath = some path ∧ path.evidenceId = item.evidenceId

/-- Nothing but tampering changes the file of a record. -/
theorem step_file (hs : Sound ids s) {item : Evidence} (hitem : item ∈ s.records.rows) {path : Path}
    (hpath : OwnPath item path) {op : Op} (hop : ¬ Tampers path op) :
    (step ids hash s op).files.lookup path = s.files.lookup path := by
  cases op with
  | begin input =>
    rw [step, begin_]
    split
    · rfl
    · split
      · rfl
      · rfl
      · dsimp only
        split <;> rfl
  | advance position now event =>
    rw [step]
    split
    · rename_i a hget
      have ha : a ∈ s.inFlight := List.mem_of_getElem? hget
      have hstep := @advance_cases hash a s.files s.pid now event
      generalize a.advance hash s.files s.pid now event = effect at hstep
      have hother : ¬ (a.Writes ∧ path.evidenceId = a.evidenceId) := fun h =>
        (hs.ahead a ha h.1).unused item hitem (hpath.2.symm.trans h.2)
      cases hstep with
      | ended hfiles => exact hfiles path hother
      | continued hfiles => exact hfiles path hother
      | _ => rfl
    · rfl
  | structured input =>
    rw [step, putStructured]
    split
    · rfl
    · split
      · rfl
      · split <;> rfl
      · rfl
  | annotate evidenceId added =>
    rw [step]
    split <;> rfl
  | reconcile taskId unread now cut => rfl
  | crash pid => rfl
  | tamper other node =>
    have hne : path ≠ other := fun h => hop h.symm
    cases node with
    | some node => exact (OrderedMap.lookup_upsert _ _ _ _).trans (if_neg hne)
    | none => exact (OrderedMap.lookup_filter_ne _ _ _).trans (if_neg hne)

end

/-! ### Reconciliation -/

/-- The record is marked as failed and incomplete. -/
def MarkedFailed (item : Evidence) : Prop :=
  item.metadata.lookup "integrityStatus" = some (.str "FAILED") ∧
    item.metadata.lookup "complete" = some (.bool false)

theorem reconciled_failed {files : Files} {unread : Path → String} {now : String} {item : Evidence} {path : Path}
    (hpath : item.storagePath = some path) (hbad : intact hash files item path = false) :
    MarkedFailed (reconciled hash files unread now item) := by
  rw [reconciled, hpath]
  simp only [hbad, Bool.false_eq_true, if_false]
  constructor <;> simp [spread, OrderedMap.lookup_upsert]

theorem mem_putAll : ∀ {items : List Evidence} {records : Table Evidence.evidenceId} {later : Evidence},
    later ∈ (putAll records items).rows →
      later ∈ items ∨ later ∈ records.rows ∧ ∀ item ∈ items, later.evidenceId ≠ item.evidenceId
  | [], _, _, h => Or.inr ⟨h, fun _ hitem => absurd hitem List.not_mem_nil⟩
  | item :: rest, records, later, h => by
      have hlater : later ∈ (putAll (records.put item) rest).rows := h
      rcases mem_putAll hlater with hrest | ⟨hput, hother⟩
      · exact Or.inl (List.mem_cons_of_mem _ hrest)
      · rcases Table.mem_put.1 hput with rfl | ⟨hold, hne⟩
        · exact Or.inl List.mem_cons_self
        · refine Or.inr ⟨hold, fun other hmem => ?_⟩
          rcases List.mem_cons.1 hmem with rfl | hmem
          · exact hne
          · exact hother other hmem

/-- After a reconciliation, a record of the task whose file is not the one it was made of is marked. -/
theorem reconcile_marks (s : System) (taskId : DrawnId) (unread : Path → String) (now : String) :
    ∀ item ∈ (reconcileTask hash s taskId unread now none).records.rows, item.taskId = taskId →
      ∀ path, item.storagePath = some path → intact hash s.files item path = false → MarkedFailed item := by
  intro later hlater htask path hpath hbad
  rcases mem_putAll hlater with hmem | ⟨hold, hother⟩
  · obtain ⟨item, -, rfl⟩ := List.mem_map.1 hmem
    have hkept := @reconciled_kept hash s.files unread now item
    refine reconciled_failed (hkept.storagePath ▸ hpath) ?_
    rw [intact, hkept.sha256] at hbad
    exact hbad
  · have hlisted : later ∈ listEvidence s taskId := mem_listEvidence.2 ⟨hold, htask⟩
    exact absurd (reconciled_kept s.files unread now later).evidenceId.symm
      (hother _ (List.mem_map_of_mem hlisted))

/-! ### Runs -/

theorem runOps_sound (ops : List Op) : Sound ids (runOps ids hash ops) :=
  Runs.run_invariant (I := Sound ids) (fun _ op hs _ => step_sound hs op) ops _ empty_sound
    (Runs.along_true _ _)

/-- A run that goes on from a sound state keeps the records, and the files that nothing tampers with. -/
theorem run_keeps : ∀ (ops : List Op) {s : System}, Sound ids s →
    Extends s.records (Runs.run (step ids hash) s ops).records ∧
      ∀ item ∈ s.records.rows, ∀ path, OwnPath item path → (∀ op ∈ ops, ¬ Tampers path op) →
        (Runs.run (step ids hash) s ops).files.lookup path = s.files.lookup path
  | [], s, _ => ⟨.refl _, fun _ _ _ _ _ => rfl⟩
  | op :: rest, s, hs => by
      obtain ⟨hextends, hfiles⟩ := run_keeps rest (step_sound hs op)
      refine ⟨(step_extends hs op).trans hextends, fun item hitem path hpath hops => ?_⟩
      obtain ⟨later, hlater, hkept⟩ := @step_extends ids hash s hs op item hitem
      have hown : OwnPath later path :=
        ⟨hkept.storagePath.trans hpath.1, hpath.2.trans hkept.evidenceId.symm⟩
      rw [Runs.run_cons, hfiles later hlater path hown fun other hother =>
        hops other (List.mem_cons_of_mem _ hother)]
      exact step_file hs hitem hpath (hops op List.mem_cons_self)

/-- What the store promises of a run, and of everything that comes after it. -/
structure Idempotent (ids : EvidenceIds) (hash : Bytes → String) (ops later : List Op) : Prop where
  /-- A call has one record at most. -/
  single : ∀ item ∈ (runOps ids hash ops).records.rows, ∀ other ∈ (runOps ids hash ops).records.rows,
    SameCall item.toEvidenceBinding other.toEvidenceBinding → item = other
  /-- A record stays, bound as it is. -/
  stays : ∀ item ∈ (runOps ids hash ops).records.rows,
    ∃ item' ∈ (runOps ids hash (ops ++ later)).records.rows, Kept item item'
  /-- Whatever record the call has later is that one. -/
  bound : ∀ item ∈ (runOps ids hash ops).records.rows,
    ∀ item' ∈ (runOps ids hash (ops ++ later)).records.rows,
      SameCall item.toEvidenceBinding item'.toEvidenceBinding → Kept item item'
  /-- The bytes under it are changed by tampering only. -/
  stored : ∀ item ∈ (runOps ids hash ops).records.rows, ∀ path, OwnPath item path →
    (∀ op ∈ later, ¬ Tampers path op) →
      (runOps ids hash (ops ++ later)).files.lookup path = (runOps ids hash ops).files.lookup path
  /-- What a call returns is its record. -/
  returned : ∀ entry ∈ (runOps ids hash ops).returned,
    Answers entry.1 entry.2 ∧ ∃ item ∈ (runOps ids hash (ops ++ later)).records.rows, Kept entry.2 item
  /-- A reconciliation marks what does not match. -/
  reconciled : ∀ taskId unread now,
    ∀ item ∈ (step ids hash (runOps ids hash ops) (.reconcile taskId unread now none)).records.rows,
      item.taskId = taskId → ∀ path, item.storagePath = some path →
        intact hash (runOps ids hash ops).files item path = false → MarkedFailed item

/-- Whatever crashes, replays, failures and changes of files come in whatever order, a call has one record, it
    is never bound to anything else, and reconciliation finds the files that have been changed. -/
theorem evidence_idempotent (ids : EvidenceIds) (hash : Bytes → String) (ops later : List Op) :
    Idempotent ids hash ops later := by
  have hs : Sound ids (runOps ids hash ops) := runOps_sound ops
  have happend : runOps ids hash (ops ++ later) = Runs.run (step ids hash) (runOps ids hash ops) later :=
    Runs.run_append _ _ _
  obtain ⟨hextends, hfiles⟩ := run_keeps later hs
  rw [← happend] at hextends hfiles
  refine ⟨hs.keyed.single, hextends, fun item hitem item' hitem' hsame => ?_, hfiles, fun entry hentry => ?_,
    reconcile_marks _⟩
  · obtain ⟨last, hlast, hkept⟩ := hextends item hitem
    obtain rfl := (runOps_sound (ops ++ later)).keyed.single last hlast item' hitem'
      ((hkept.sameCall_iff _).2 hsame)
    exact hkept
  · exact (hs.returned entry hentry).extends hextends

/-! Ids that are told apart by their first letter. -/

theorem ofList_cons_inj {ch : Char} {x y : List Char} (h : String.ofList (ch :: x) = String.ofList (ch :: y)) :
    x = y :=
  (List.cons.inj (String.ofList_injective h)).2

def letteredIds : EvidenceIds where
  createId n := String.ofList ('r' :: List.replicate n '1')
  createDeterministicId text := String.ofList ('d' :: text.toList)
  createId_injective a b h := by simpa using congrArg List.length (ofList_cons_inj h)
  deterministic_injective a b h := String.toList_inj.1 (ofList_cons_inj h)
  disjoint n text h := absurd (List.cons.inj (String.ofList_injective h)).1 (by decide)

def taskOne : DrawnId := ⟨"TASK-1", by decide⟩

def streamInput : PutInput where
  taskId := taskOne
  epochId := none
  host := "10.0.0.1"
  type := "collected_object"
  source := "/tmp/item"
  tool := "collect"
  toolCallId := some "call-1"
  metadata := []
  content := .stream

/-- A crash between the renaming and the record, a replay that brings other bytes, and another replay. -/
example :
    let hash (bytes : Bytes) := String.ofList (bytes.map fun b => Char.ofNat b.toNat)
    let crashed := [.begin streamInput, .advance 0 "t" .proceeds, .advance 0 "t" (.chunk [65]),
      .advance 0 "t" (.transferred 1 "A"), .advance 0 "t" .proceeds, .crash "2"]
    let replayed := [.begin streamInput, .advance 0 "t" .proceeds, .advance 0 "t" (.chunk [66]),
      .advance 0 "t" (.transferred 1 "B"), .advance 0 "t" .proceeds, .advance 0 "t" .proceeds]
    (runOps letteredIds hash (crashed ++ replayed ++ replayed)).records.rows.map (·.sha256) = [some "B"] := by
  decide

end HuntWarden.EvidenceStore
