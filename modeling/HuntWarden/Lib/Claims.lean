import Mathlib.Data.List.Induction
import Mathlib.Logic.Function.Basic

/-! A board on which owners claim keys, one claim after the other. A key that two owners claim is disputed and
    belongs to nobody from then on. In the end a key belongs to an owner exactly when every claim of it is that
    owner's, in whatever order the claims came. -/

namespace HuntWarden.Claims

variable {κ ο : Type} [DecidableEq κ] [DecidableEq ο]

structure Board (κ ο : Type) where
  owners : κ → Option ο
  ambiguous : κ → Bool

def Board.empty : Board κ ο := ⟨fun _ => none, fun _ => false⟩

def Board.claim (b : Board κ ο) (key : κ) (owner : ο) : Board κ ο :=
  if (b.owners key).any fun other => other ≠ owner then
    ⟨Function.update b.owners key none, Function.update b.ambiguous key true⟩
  else if b.ambiguous key then b
  else ⟨Function.update b.owners key (some owner), b.ambiguous⟩

def Board.claimAll (b : Board κ ο) (claims : List (κ × ο)) : Board κ ο :=
  claims.foldl (fun b c => b.claim c.1 c.2) b

theorem claimAll_append (b : Board κ ο) (first second : List (κ × ο)) :
    b.claimAll (first ++ second) = (b.claimAll first).claimAll second := List.foldl_append

/-- Who has claimed a key. -/
def claimants (key : κ) (claims : List (κ × ο)) : List ο :=
  (claims.filter fun c => c.1 = key).map Prod.snd

omit [DecidableEq ο] in
theorem mem_claimants {key : κ} {owner : ο} {claims : List (κ × ο)} :
    owner ∈ claimants key claims ↔ (key, owner) ∈ claims := by
  simp [claimants]

/-- What the board says of a key that these owners have claimed. -/
inductive Judged (claimants : List ο) : Option ο → Bool → Prop
  | unclaimed (h : claimants = []) : Judged claimants none false
  | owned (owner : ο) (hne : claimants ≠ []) (h : ∀ other ∈ claimants, other = owner) :
      Judged claimants (some owner) false
  | disputed (first second : ο) (hfirst : first ∈ claimants) (hsecond : second ∈ claimants)
      (hne : first ≠ second) : Judged claimants none true

/-- One more claim of the key. -/
theorem Judged.claim {b : Board κ ο} {key : κ} {before : List ο}
    (h : Judged before (b.owners key) (b.ambiguous key)) (owner : ο) :
    Judged (before ++ [owner]) ((b.claim key owner).owners key) ((b.claim key owner).ambiguous key) := by
  rw [Board.claim]
  cases howner : b.owners key with
  | none =>
    rw [howner] at h
    rw [if_neg (by simp)]
    cases hambiguous : b.ambiguous key with
    | true =>
      rw [hambiguous] at h
      rw [if_pos rfl, howner, hambiguous]
      cases h with
      | disputed first second hfirst hsecond hne =>
        exact .disputed first second (List.mem_append_left _ hfirst) (List.mem_append_left _ hsecond) hne
    | false =>
      rw [hambiguous] at h
      rw [if_neg (by simp)]
      cases h with
      | unclaimed hnone =>
        dsimp only
        rw [Function.update_self, hambiguous, hnone]
        exact .owned owner (List.cons_ne_nil _ _) fun other hother => List.mem_singleton.1 hother
  | some other =>
    rw [howner] at h
    by_cases hsame : other = owner
    · rw [if_neg (by simp [hsame])]
      cases hambiguous : b.ambiguous key with
      | true => rw [hambiguous] at h; cases h
      | false =>
        rw [hambiguous] at h
        rw [if_neg (by simp)]
        cases h with
        | owned _ hne hall =>
          dsimp only
          rw [Function.update_self, hambiguous]
          refine .owned owner (List.append_ne_nil_of_left_ne_nil hne _) fun x hx => ?_
          rcases List.mem_append.1 hx with hx | hx
          · exact (hall x hx).trans hsame
          · exact List.mem_singleton.1 hx
    · rw [if_pos (by simpa using hsame)]
      dsimp only
      rw [Function.update_self, Function.update_self]
      generalize b.ambiguous key = flag at h
      cases h with
      | owned _ hne hall =>
        obtain ⟨x, rest, hbefore⟩ := List.exists_cons_of_ne_nil hne
        have hx : x ∈ before := by rw [hbefore]; exact List.mem_cons_self
        refine .disputed x owner (List.mem_append_left _ hx) (List.mem_append_right _ (List.mem_singleton_self _)) ?_
        rw [hall x hx]
        exact hsame

theorem claim_of_ne (b : Board κ ο) {key other : κ} (h : other ≠ key) (owner : ο) :
    (b.claim key owner).owners other = b.owners other ∧
      (b.claim key owner).ambiguous other = b.ambiguous other := by
  rw [Board.claim]
  split
  · exact ⟨Function.update_of_ne h _ _, Function.update_of_ne h _ _⟩
  · split
    · exact ⟨rfl, rfl⟩
    · exact ⟨Function.update_of_ne h _ _, rfl⟩

/-- After any claims the board judges every key by who claimed it. -/
theorem judged_claimAll (claims : List (κ × ο)) (key : κ) :
    Judged (claimants key claims) ((Board.empty.claimAll claims).owners key)
      ((Board.empty.claimAll claims).ambiguous key) := by
  induction claims using List.reverseRecOn with
  | nil => exact .unclaimed rfl
  | append_singleton claims c ih =>
    rw [Board.claimAll, List.foldl_append, List.foldl_cons, List.foldl_nil]
    change Judged _ (((Board.empty.claimAll claims).claim c.1 c.2).owners key)
      (((Board.empty.claimAll claims).claim c.1 c.2).ambiguous key)
    by_cases hkey : c.1 = key
    · have hclaimants : claimants key (claims ++ [c]) = claimants key claims ++ [c.2] := by
        rw [claimants, List.filter_append, List.map_append, List.filter_cons_of_pos (by simpa using hkey)]
        rfl
      subst hkey
      rw [hclaimants]
      exact ih.claim c.2
    · have hclaimants : claimants key (claims ++ [c]) = claimants key claims := by
        rw [claimants, List.filter_append, List.map_append, List.filter_cons_of_neg (by simpa using hkey)]
        exact List.append_nil _
      obtain ⟨howner, hambiguous⟩ := claim_of_ne (Board.empty.claimAll claims) (Ne.symm hkey) c.2
      rw [hclaimants, howner, hambiguous]
      exact ih

/-- A key belongs to an owner exactly when it is claimed and every claim of it is that owner's. -/
theorem owners_eq_some {claims : List (κ × ο)} {key : κ} {owner : ο} :
    (Board.empty.claimAll claims).owners key = some owner ↔
      (key, owner) ∈ claims ∧ ∀ other, (key, other) ∈ claims → other = owner := by
  have hjudged := judged_claimAll claims key
  simp only [← mem_claimants]
  constructor
  · intro h
    rw [h] at hjudged
    generalize (Board.empty.claimAll claims).ambiguous key = flag at hjudged
    cases hjudged with
    | owned _ hne hall =>
      obtain ⟨x, rest, hclaimants⟩ := List.exists_cons_of_ne_nil hne
      have hx : x ∈ claimants key claims := by rw [hclaimants]; exact List.mem_cons_self
      exact ⟨hall x hx ▸ hx, hall⟩
  · rintro ⟨hmem, hall⟩
    generalize (Board.empty.claimAll claims).owners key = answer at hjudged ⊢
    generalize (Board.empty.claimAll claims).ambiguous key = flag at hjudged
    cases hjudged with
    | unclaimed hnil => rw [hnil] at hmem; cases hmem
    | owned other _ hother => rw [hother owner hmem]
    | disputed first second hfirst hsecond hne =>
      exact absurd ((hall first hfirst).trans (hall second hsecond).symm) hne

end HuntWarden.Claims
