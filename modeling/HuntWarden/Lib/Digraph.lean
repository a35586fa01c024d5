import HuntWarden.Lib.OrderedMap
import Mathlib.Logic.Relation

/-! Directed graphs that grow by edges which close no circle: what a depth-first search that fails has
    ruled out, and what a growing graph keeps. -/

namespace HuntWarden.Digraph

open Relation OrderedMap

variable {κ : Type}

/-! ### Adding an edge -/

/-- The graph with one more edge. -/
def Extended (E : κ → κ → Prop) (source target : κ) (a b : κ) : Prop := E a b ∨ (a = source ∧ b = target)

def Acyclic (E : κ → κ → Prop) : Prop := ∀ node, ¬ TransGen E node node

/-- Every node can be reached from one that no edge leads to. -/
def Rooted (E : κ → κ → Prop) : Prop :=
  ∀ node, ∃ root, (∀ other, ¬ E other root) ∧ ReflTransGen E root node

variable {E : κ → κ → Prop} {source target : κ}

theorem reflTransGen_extended {a b : κ} (h : ReflTransGen E a b) :
    ReflTransGen (Extended E source target) a b := by
  induction h with
  | refl => exact .refl
  | tail _ hedge ih => exact ih.tail (Or.inl hedge)

/-- A path that uses the new edge passes through both its ends. -/
theorem transGen_extended {a b : κ} (h : TransGen (Extended E source target) a b) :
    TransGen E a b ∨ (ReflTransGen E a source ∧ ReflTransGen E target b) := by
  induction h with
  | single hedge =>
    rcases hedge with hedge | ⟨rfl, rfl⟩
    · exact Or.inl (.single hedge)
    · exact Or.inr ⟨.refl, .refl⟩
  | tail _ hedge ih =>
    rcases hedge with hedge | ⟨rfl, rfl⟩
    · rcases ih with hpath | ⟨hsource, htarget⟩
      · exact Or.inl (hpath.tail hedge)
      · exact Or.inr ⟨hsource, htarget.tail hedge⟩
    · rcases ih with hpath | ⟨hsource, -⟩
      · exact Or.inr ⟨hpath.to_reflTransGen, .refl⟩
      · exact Or.inr ⟨hsource, .refl⟩

theorem Acyclic.extended (h : Acyclic E) (hback : ¬ ReflTransGen E target source) :
    Acyclic (Extended E source target) := by
  intro node hcircle
  rcases transGen_extended hcircle with hold | ⟨hsource, htarget⟩
  · exact h node hold
  · exact hback (htarget.trans hsource)

/-- What was reached from the new edge's end is reached from the root of its beginning. -/
theorem Rooted.extended (h : Rooted E) (hback : ¬ ReflTransGen E target source) :
    Rooted (Extended E source target) := by
  intro node
  obtain ⟨root, hroot, hpath⟩ := h node
  have hkeep : ∀ {other : κ}, (∀ before, ¬ E before other) → other ≠ target →
      ∀ before, ¬ Extended E source target before other := by
    rintro other hother hne before (hedge | ⟨-, heq⟩)
    · exact hother before hedge
    · exact hne heq
  by_cases htarget : root = target
  · obtain ⟨first, hfirst, hsource⟩ := h source
    have hne : first ≠ target := fun heq => hback (heq ▸ hsource)
    refine ⟨first, hkeep hfirst hne, ?_⟩
    have hedge : Extended E source target source root := Or.inr ⟨rfl, htarget⟩
    exact ((reflTransGen_extended hsource).tail hedge).trans (reflTransGen_extended hpath)
  · exact ⟨root, hkeep hroot htarget, reflTransGen_extended hpath⟩

/-! ### Depth-first search -/

variable [DecidableEq κ]

/-- The edges of a graph given by successor sets. -/
def Edge (graph : List (κ × List κ)) (node next : κ) : Prop := next ∈ successors graph node

theorem edge_addTo (graph : List (κ × List κ)) :
    Edge (addTo source target graph) = Extended (Edge graph) source target := by
  funext a b
  exact propext mem_successors_addTo

/-- The successors of the nodes seen are seen, or still to be looked at. -/
def Closed (graph : List (κ × List κ)) (pending seen : List κ) : Prop :=
  ∀ node ∈ seen, ∀ next, Edge graph node next → next ∈ seen ∨ next ∈ pending

/-- A search that fails has looked at everything it could reach. -/
theorem not_reachable_of_reachesFrom {graph : List (κ × List κ)} {pending seen : List κ}
    (hclosed : Closed graph pending seen) (hseen : target ∉ seen)
    (h : reachesFrom graph target pending seen = false) :
    ∀ node, node ∈ pending ∨ node ∈ seen → ¬ ReflTransGen (Edge graph) node target := by
  induction pending, seen using reachesFrom.induct graph target with
  | case1 seen =>
    rintro node (hnode | hnode) hpath
    · cases hnode
    · induction hpath using ReflTransGen.head_induction_on with
      | refl => exact hseen hnode
      | head hedge _ ih => exact ih ((hclosed _ hnode _ hedge).resolve_right List.not_mem_nil)
  | case2 seen rest =>
    rw [reachesFrom, if_pos rfl] at h
    cases h
  | case3 seen current rest hne hmem ih =>
    rw [reachesFrom, if_neg hne, dif_pos hmem] at h
    have hclosed' : Closed graph rest seen := by
      intro node hnode next hedge
      rcases hclosed node hnode next hedge with hnext | hnext
      · exact Or.inl hnext
      · rcases List.mem_cons.1 hnext with rfl | hnext
        · exact Or.inl hmem
        · exact Or.inr hnext
    rintro node (hnode | hnode)
    · rcases List.mem_cons.1 hnode with rfl | hnode
      · exact ih hclosed' hseen h node (Or.inr hmem)
      · exact ih hclosed' hseen h node (Or.inl hnode)
    · exact ih hclosed' hseen h node (Or.inr hnode)
  | case4 seen current rest hne hmem ih =>
    rw [reachesFrom, if_neg hne, dif_neg hmem] at h
    have hclosed' : Closed graph ((successors graph current).reverse ++ rest) (current :: seen) := by
      intro node hnode next hedge
      rw [List.mem_cons, List.mem_append, List.mem_reverse]
      rcases List.mem_cons.1 hnode with rfl | hnode
      · exact Or.inr (Or.inl hedge)
      · rcases hclosed node hnode next hedge with hnext | hnext
        · exact Or.inl (Or.inr hnext)
        · rcases List.mem_cons.1 hnext with rfl | hnext
          · exact Or.inl (Or.inl rfl)
          · exact Or.inr (Or.inr hnext)
    have hseen' : target ∉ current :: seen := by
      rw [List.mem_cons, not_or]
      exact ⟨fun heq => hne heq.symm, hseen⟩
    rintro node (hnode | hnode)
    · rcases List.mem_cons.1 hnode with rfl | hnode
      · exact ih hclosed' hseen' h node (Or.inr List.mem_cons_self)
      · exact ih hclosed' hseen' h node (Or.inl (List.mem_append_right _ hnode))
    · exact ih hclosed' hseen' h node (Or.inr (List.mem_cons_of_mem _ hnode))

theorem not_reachable {graph : List (κ × List κ)} {start : κ} (h : reaches graph start target = false) :
    ¬ ReflTransGen (Edge graph) start target :=
  not_reachable_of_reachesFrom (fun _ hnode => absurd hnode List.not_mem_nil) List.not_mem_nil h start
    (Or.inl List.mem_cons_self)

end HuntWarden.Digraph
