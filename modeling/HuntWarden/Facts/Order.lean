import HuntWarden.Facts.Query
import HuntWarden.Lib.Paging
import Mathlib.Data.Nat.Cast.Order.Basic
import Mathlib.Order.Monotone.Basic

/-! The order of a page is a total order of positions: a field holds numbers in every fact or in none,
    so that comparing values is transitive, and the sequence number settles what the order of the query
    leaves level. -/

namespace HuntWarden.FactQuery

open Std (TransCmp OrientedCmp)
open Paging Js

instance transCmp_direction {α : Type} {order : α → α → Ordering} [TransCmp order] (d : Direction) :
    TransCmp fun a b => d.apply (order a b) := by
  cases d with
  | asc => exact ‹TransCmp order›
  | desc =>
    have hswap : (fun a b => Direction.desc.apply (order a b)) = fun a b => order b a :=
      funext fun a => funext fun b => (OrientedCmp.eq_swap : order b a = (order a b).swap).symm
    rw [hswap]
    infer_instance

variable (r : Runtime)

/-- Only the sequence number is a number. -/
theorem get?_ne_num {fact : FactRecord} {field : String} (h : field ≠ "factSeq") (q : ℚ) :
    fact.get? field ≠ some (.num q) := by
  unfold FactRecord.get?
  split <;> simp_all [FactSource.toJson, Collector.toJson, recordOf]

theorem compareValues_text {a b : Option Json} (ha : ∀ q, a ≠ some (.num q)) :
    compareValues r a b = r.collation.localeCompare (toText r a) (toText r b) := by
  unfold compareValues
  split
  · exact absurd rfl (ha _)
  · rfl

instance transCmp_compareValues (field : String) : TransCmp fun left right : FactRecord =>
    compareValues r (left.get? field) (right.get? field) := by
  by_cases h : field = "factSeq"
  · subst h
    exact transCmp_on (transCmp_cmp (α := ℚ)) fun fact : FactRecord => (fact.factSeq : ℚ)
  · have htext : (fun left right : FactRecord =>
        compareValues r (left.get? field) (right.get? field)) = fun left right =>
          r.collation.localeCompare (toText r (left.get? field)) (toText r (right.get? field)) :=
      funext fun left => funext fun right => compareValues_text r (get?_ne_num h)
    rw [htext]
    exact transCmp_on (transCmp_localeCompare r.collation) _

/-- The order of the query alone. -/
instance transCmp_compareBy : ∀ order : List OrderBy, TransCmp fun left right : FactRecord =>
    compareBy r left.get? right.get? order
  | [] => { eq_swap := rfl, isLE_trans := fun _ h => h }
  | item :: order =>
    have := transCmp_compareBy order
    inferInstanceAs (TransCmp (compareLex
      (fun left right : FactRecord =>
        item.direction.apply (compareValues r (left.get? item.field) (right.get? item.field)))
      fun left right => compareBy r left.get? right.get? order))

/-- The order of the query, then the sequence number. -/
def position (order : List OrderBy) (left right : FactRecord) : Ordering :=
  (compareBy r left.get? right.get? order).then (cmp left.factSeq right.factSeq)

instance transCmp_position (order : List OrderBy) : TransCmp (position r order) :=
  have := transCmp_on (transCmp_cmp (α := ℕ)) FactRecord.factSeq
  inferInstanceAs (TransCmp (compareLex
    (fun left right : FactRecord => compareBy r left.get? right.get? order)
    fun left right => cmp left.factSeq right.factSeq))

theorem factSeq_of_position {order : List OrderBy} {left right : FactRecord}
    (h : position r order left right = .eq) : left.factSeq = right.factSeq :=
  cmp_eq_eq_iff _ _ |>.1 (Ordering.then_eq_eq.1 h).2

/-- Facts of different sequence numbers have different positions. -/
theorem separates_position (order : List OrderBy) {facts : List FactRecord}
    (h : (facts.map (·.factSeq)).Nodup) : Separates (position r order) facts :=
  separates_of_key (fun _ _ => factSeq_of_position r) h

theorem sortFacts_congr {order : List OrderBy} {facts facts' : List FactRecord}
    (hnodup : (facts.map (·.factSeq)).Nodup) (hperm : facts.Perm facts') :
    sortFacts r order facts = sortFacts r order facts' :=
  sortBy_congr (c := position r order) (separates_position r order hnodup) hperm

/-- Filtering before sorting or after it. -/
theorem filter_sortFacts {order : List OrderBy} {facts : List FactRecord}
    (hnodup : (facts.map (·.factSeq)).Nodup) (p : FactRecord → Bool) :
    (sortFacts r order facts).filter p = sortFacts r order (facts.filter p) :=
  filter_sortBy (c := position r order) (separates_position r order hnodup) p

/-- The default order goes by the sequence number alone. -/
theorem position_default (left right : FactRecord) :
    position r defaultOrder left right = cmp left.factSeq right.factSeq := by
  have hcast : cmp (left.factSeq : ℚ) right.factSeq = cmp left.factSeq right.factSeq :=
    (Nat.strictMono_cast (α := ℚ)).cmp_map_eq _ _
  have hkey : compareBy r left.get? right.get? defaultOrder =
      (cmp (left.factSeq : ℚ) right.factSeq).then .eq := rfl
  rw [position, hkey, hcast]
  cases cmp left.factSeq right.factSeq <;> rfl

/-- Facts that come by their sequence numbers are in the default order. -/
theorem sortFacts_default {facts : List FactRecord} (hnodup : (facts.map (·.factSeq)).Nodup)
    (hsorted : facts.Pairwise fun left right => left.factSeq ≤ right.factSeq) :
    sortFacts r defaultOrder facts = facts := by
  refine sortBy_eq (c := position r defaultOrder) (separates_position r _ hnodup) (.refl _)
    (hsorted.imp fun h => ?_)
  rw [position_default, isLE_iff_ne_gt, Js.cmp_ne_gt]
  exact h

end HuntWarden.FactQuery
