import Mathlib.Data.List.Basic

/-! Paths of a POSIX system as texts: `resolve`, which makes a path absolute and takes out its empty, `.` and `..`
    segments, and `dirname`. A resolved path resolves to itself. -/

namespace HuntWarden.PosixPath

def isAbsolute (path : String) : Bool := path.toList.head? = some '/'

/-- One segment of a path, after those before it (the last first). -/
def enter (stack : List (List Char)) (segment : List Char) : List (List Char) :=
  if segment = [] ∨ segment = ['.'] then stack
  else if segment = ['.', '.'] then stack.tail
  else segment :: stack

/-- One argument of `resolve`: an absolute one starts again from the root. -/
def follow (stack : List (List Char)) (path : String) : List (List Char) :=
  (path.toList.splitOn '/').foldl enter (if isAbsolute path then [] else stack)

def render (stack : List (List Char)) : String := String.ofList ('/' :: ['/'].intercalate stack.reverse)

/-- `path.resolve(...paths)`, in a working directory. -/
def resolve (cwd : String) (paths : List String) : String := render ((cwd :: paths).foldl follow [])

/-- `path.dirname` of a resolved path. -/
def dirname (path : String) : String := render (follow [] path).tail

variable {stack : List (List Char)} {path cwd : String} {paths : List String}

/-! ### Resolved paths -/

/-- A segment that names a file or a directory. -/
def Named (segment : List Char) : Prop := segment ≠ [] ∧ segment ≠ ['.'] ∧ segment ≠ ['.', '.'] ∧ '/' ∉ segment

theorem named_enter {segment : List Char} (h : ∀ s ∈ stack, Named s) (hslash : '/' ∉ segment) :
    ∀ s ∈ enter stack segment, Named s := by
  rw [enter]
  split
  · exact h
  · next hplain =>
    split
    · exact fun s hs => h s (List.mem_of_mem_tail hs)
    · next hup =>
      rw [not_or] at hplain
      exact List.forall_mem_cons.2 ⟨⟨hplain.1, hplain.2, hup, hslash⟩, h⟩

theorem named_foldl_enter : ∀ {segments stack : List (List Char)}, (∀ s ∈ stack, Named s) →
    (∀ segment ∈ segments, '/' ∉ segment) → ∀ s ∈ segments.foldl enter stack, Named s
  | [], _, h, _ => h
  | segment :: segments, _, h, hslash => by
    rw [List.forall_mem_cons] at hslash
    rw [List.foldl_cons]
    exact named_foldl_enter (named_enter h hslash.1) hslash.2

theorem slash_not_mem_splitOn : ∀ (text : List Char), ∀ segment ∈ text.splitOn '/', '/' ∉ segment
  | [], segment, h => by
    rw [List.splitOn_nil, List.mem_singleton] at h
    rw [h]
    exact List.not_mem_nil
  | ch :: text, segment, h => by
    rw [List.splitOn_cons_eq_if_modifyHead] at h
    have ih := slash_not_mem_splitOn text
    split at h
    · rcases List.mem_cons.1 h with rfl | h
      · exact List.not_mem_nil
      · exact ih segment h
    · next hch =>
      cases hsplit : text.splitOn '/' with
      | nil =>
        rw [hsplit] at h
        cases h
      | cons first others =>
        rw [hsplit] at h ih
        rcases List.mem_cons.1 h with rfl | h
        · intro hmem
          rcases List.mem_cons.1 hmem with hsame | hmem
          · exact hch (by rw [← hsame]; rfl)
          · exact ih first List.mem_cons_self hmem
        · exact ih segment (List.mem_cons_of_mem _ h)

theorem named_follow (h : ∀ s ∈ stack, Named s) : ∀ s ∈ follow stack path, Named s := by
  refine named_foldl_enter ?_ (slash_not_mem_splitOn _)
  split
  · exact fun _ hs => absurd hs List.not_mem_nil
  · exact h

theorem named_foldl_follow : ∀ {paths : List String} {stack : List (List Char)}, (∀ s ∈ stack, Named s) →
    ∀ s ∈ paths.foldl follow stack, Named s
  | [], _, h => h
  | _ :: _, _, h => by
    rw [List.foldl_cons]
    exact named_foldl_follow (named_follow h)

theorem foldl_enter_of_named : ∀ {segments stack : List (List Char)}, (∀ s ∈ segments, Named s) →
    segments.foldl enter stack = segments.reverse ++ stack
  | [], _, _ => rfl
  | segment :: segments, stack, h => by
    obtain ⟨⟨hempty, hdot, hup, _⟩, hrest⟩ := List.forall_mem_cons.1 h
    rw [List.foldl_cons, foldl_enter_of_named hrest, enter, if_neg (not_or.2 ⟨hempty, hdot⟩), if_neg hup,
      List.reverse_cons, List.append_assoc]
    rfl

@[simp] theorem isAbsolute_render : isAbsolute (render stack) = true := by
  rw [isAbsolute, render, String.toList_ofList]
  rfl

/-- A rendered path leads to the segments it was made of. -/
theorem follow_render {before : List (List Char)} (h : ∀ s ∈ stack, Named s) :
    follow before (render stack) = stack := by
  rw [follow, if_pos isAbsolute_render, render, String.toList_ofList, List.splitOn_cons_eq_if_modifyHead,
    if_pos (by rfl)]
  by_cases hnil : stack = []
  · subst hnil
    rfl
  · have hnamed : ∀ s ∈ stack.reverse, Named s := fun s hs => h s (List.mem_reverse.1 hs)
    rw [List.splitOn_intercalate '/' (fun s hs => (hnamed s hs).2.2.2) (by simpa using hnil), List.foldl_cons,
      foldl_enter_of_named hnamed, List.reverse_reverse]
    exact List.append_nil _

theorem resolve_resolve {cwd' : String} : resolve cwd' [resolve cwd paths] = resolve cwd paths := by
  have hnamed : ∀ s ∈ (cwd :: paths).foldl follow [], Named s :=
    named_foldl_follow fun _ hs => absurd hs List.not_mem_nil
  rw [resolve, resolve, List.foldl_cons, List.foldl_cons, List.foldl_nil, follow_render hnamed]

@[simp] theorem isAbsolute_resolve : isAbsolute (resolve cwd paths) = true := isAbsolute_render

theorem resolve_ne_empty : resolve cwd paths ≠ "" := by
  intro h
  have habsolute : isAbsolute (resolve cwd paths) = true := isAbsolute_resolve
  rw [h] at habsolute
  exact absurd habsolute (by decide)

example : resolve "/home/user" ["/etc/app/config", "..", "data/./x//y"] = "/etc/app/data/x/y" := by decide

end HuntWarden.PosixPath
