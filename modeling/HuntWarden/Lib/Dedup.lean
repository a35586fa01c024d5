import Mathlib.Data.List.Basic

/-! A store that keeps the first entry of each key, and jobs that ask it for entries. A job looks for an
    entry that covers its mark, while the store compares keys: where an entry holds the key of a job
    without covering its mark, the job is asked for again and again and is never done. -/

namespace HuntWarden.Dedup

/-- The jobs: the entry each asks for, and the mark by which it is found again. -/
structure Jobs (κ ν μ ι : Type) where
  key : ι → κ
  value : ι → ν
  mark : ι → μ
  covers : ν → μ → Prop
  covers_value : ∀ j m, covers (value j) m ↔ mark j = m

variable {κ ν μ ι : Type} [DecidableEq κ] (J : Jobs κ ν μ ι)

def add (entries : List (κ × ν)) (job : ι) : List (κ × ν) :=
  if J.key job ∈ entries.map Prod.fst then entries else entries ++ [(J.key job, J.value job)]

def addAll (entries : List (κ × ν)) (jobs : List ι) : List (κ × ν) := jobs.foldl (add J) entries

def Done (entries : List (κ × ν)) (mark : μ) : Prop := ∃ e ∈ entries, J.covers e.2 mark

/-- A job that is not done, although its key is held. -/
def Stuck (entries : List (κ × ν)) (job : ι) : Prop :=
  ¬ Done J entries (J.mark job) ∧ J.key job ∈ entries.map Prod.fst

/-- No job of the pool is stuck. -/
def Clean (pool : ι → Prop) (entries : List (κ × ν)) : Prop := ∀ job, pool job → ¬ Stuck J entries job

/-- In the pool, a key says as much as a mark. -/
def Separated (pool : ι → Prop) : Prop :=
  ∀ i j, pool i → pool j → (J.key i = J.key j ↔ J.mark i = J.mark j)

variable {J} {pool : ι → Prop} {entries : List (κ × ν)} {job other : ι} {jobs : List ι} {mark : μ}

theorem add_held (h : J.key job ∈ entries.map Prod.fst) : add J entries job = entries := if_pos h

theorem add_new (h : J.key job ∉ entries.map Prod.fst) :
    add J entries job = entries ++ [(J.key job, J.value job)] := if_neg h

theorem addAll_append (entries : List (κ × ν)) (jobs rest : List ι) :
    addAll J entries (jobs ++ rest) = addAll J (addAll J entries jobs) rest := List.foldl_append

/-- Where every key is held already, nothing is added. -/
theorem addAll_held (h : ∀ job ∈ jobs, J.key job ∈ entries.map Prod.fst) : addAll J entries jobs = entries := by
  induction jobs with
  | nil => rfl
  | cons job rest ih =>
    have hhead : add J entries job = entries := add_held (h job List.mem_cons_self)
    rw [addAll, List.foldl_cons, hhead]
    exact ih fun job hjob => h job (List.mem_cons_of_mem _ hjob)

theorem done_add (h : Done J entries mark) : Done J (add J entries job) mark := by
  obtain ⟨e, he, hcovers⟩ := h
  by_cases hheld : J.key job ∈ entries.map Prod.fst
  · exact ⟨e, by rwa [add_held hheld], hcovers⟩
  · exact ⟨e, by rw [add_new hheld]; exact List.mem_append_left _ he, hcovers⟩

/-- What a new entry covers is the mark of its job. -/
theorem done_add_iff (hheld : J.key job ∉ entries.map Prod.fst) :
    Done J (add J entries job) mark ↔ Done J entries mark ∨ J.mark job = mark := by
  constructor
  · rintro ⟨e, he, hcovers⟩
    rw [add_new hheld] at he
    rcases List.mem_append.1 he with hold | hnew
    · exact Or.inl ⟨e, hold, hcovers⟩
    · rw [List.mem_singleton.1 hnew] at hcovers
      exact Or.inr ((J.covers_value job mark).1 hcovers)
  · rintro (h | h)
    · exact done_add h
    · refine ⟨(J.key job, J.value job), ?_, (J.covers_value job mark).2 h⟩
      rw [add_new hheld]
      exact List.mem_append_right _ (List.mem_singleton_self _)

/-- A stuck job stays stuck, whichever job is asked for. -/
theorem Stuck.add (hseparated : Separated J pool) (hjob : pool job) (hother : pool other)
    (h : Stuck J entries job) : Stuck J (add J entries other) job := by
  obtain ⟨hnot, hkey⟩ := h
  by_cases hheld : J.key other ∈ entries.map Prod.fst
  · rw [add_held hheld]
    exact ⟨hnot, hkey⟩
  · refine ⟨fun hdone => ?_, ?_⟩
    · rcases (done_add_iff hheld).1 hdone with hold | hmark
      · exact hnot hold
      · rw [(hseparated other job hother hjob).2 hmark] at hheld
        exact hheld hkey
    · rw [add_new hheld, List.map_append]
      exact List.mem_append_left _ hkey

theorem Stuck.addAll (hseparated : Separated J pool) (hjob : pool job) (hjobs : ∀ other ∈ jobs, pool other)
    (h : Stuck J entries job) : Stuck J (addAll J entries jobs) job := by
  induction jobs generalizing entries with
  | nil => exact h
  | cons other rest ih =>
    exact ih (fun job hmem => hjobs job (List.mem_cons_of_mem _ hmem))
      (h.add hseparated hjob (hjobs other List.mem_cons_self))

/-- Asking for a job gets no job stuck. -/
theorem Clean.add (hseparated : Separated J pool) (hjob : pool job) (h : Clean J pool entries) :
    Clean J pool (add J entries job) := by
  rintro other hother ⟨hnot, hkey⟩
  have hbefore : ¬ Done J entries (J.mark other) := fun hdone => hnot (done_add hdone)
  by_cases hheld : J.key job ∈ entries.map Prod.fst
  · rw [add_held hheld] at hkey
    exact h other hother ⟨hbefore, hkey⟩
  · rw [add_new hheld, List.map_append, List.mem_append] at hkey
    rcases hkey with hold | hnew
    · exact h other hother ⟨hbefore, hold⟩
    · have hsame := (hseparated other job hother hjob).1 (List.mem_singleton.1 hnew)
      exact hnot ((done_add_iff hheld).2 (Or.inr hsame.symm))

/-- A job that is asked for where none is stuck is done. -/
theorem Clean.done (hjob : pool job) (h : Clean J pool entries) :
    Done J (Dedup.add J entries job) (J.mark job) := by
  by_cases hheld : J.key job ∈ entries.map Prod.fst
  · by_contra hnot
    exact h job hjob ⟨fun hdone => hnot (done_add hdone), hheld⟩
  · exact (done_add_iff hheld).2 (Or.inr rfl)

theorem done_addAll (h : Done J entries mark) : Done J (addAll J entries jobs) mark := by
  induction jobs generalizing entries with
  | nil => exact h
  | cons job rest ih => exact ih (done_add h)

/-- All the jobs that are asked for are done, and no other one is stuck. -/
theorem Clean.addAll (hseparated : Separated J pool) (hjobs : ∀ job ∈ jobs, pool job)
    (h : Clean J pool entries) :
    Clean J pool (addAll J entries jobs) ∧ ∀ job ∈ jobs, Done J (addAll J entries jobs) (J.mark job) := by
  induction jobs generalizing entries with
  | nil => exact ⟨h, fun _ hjob => absurd hjob List.not_mem_nil⟩
  | cons job rest ih =>
    have hjob := hjobs job List.mem_cons_self
    obtain ⟨hclean, hdone⟩ := ih (fun job hmem => hjobs job (List.mem_cons_of_mem _ hmem))
      (h.add hseparated hjob)
    refine ⟨hclean, fun other hother => ?_⟩
    rcases List.mem_cons.1 hother with rfl | hother
    · have hfirst : Done J (Dedup.addAll J (Dedup.add J entries other) rest) (J.mark other) :=
        done_addAll (h.done hjob)
      exact hfirst
    · exact hdone other hother

end HuntWarden.Dedup
