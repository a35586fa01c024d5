import HuntWarden.Lib.Js
import Mathlib.Data.List.Sort

/-! The order in which the properties of a record are enumerated: array indices first, ascending, then
    the other names as they were set. A record rebuilt from its sorted entries is enumerated in one
    order whatever order its names were set in, unless the comparison takes two names for one. -/

namespace HuntWarden.PropertyOrder

variable {α β : Type}

/-- The number that digits spell. -/
def number (digits : List Char) : ℕ := digits.foldl (fun n ch => 10 * n + (ch.toNat - 48)) 0

/-- The array index a name spells, without leading zeros. -/
def index? (name : String) : Option ℕ :=
  (some (number name.toList)).filter fun n => n < 4294967295 ∧ toString n = name

theorem index?_inj {name name' : String} {n : ℕ} (h : index? name = some n)
    (h' : index? name' = some n) : name = name' := by
  obtain ⟨-, hn⟩ := Option.filter_eq_some_iff.1 h
  obtain ⟨-, hn'⟩ := Option.filter_eq_some_iff.1 h'
  exact (of_decide_eq_true hn).2.symm.trans (of_decide_eq_true hn').2

def isIndex (field : String × α) : Bool := (index? field.1).isSome

def indexLE (a b : String × α) : Bool := (index? a.1).getD 0 ≤ (index? b.1).getD 0

/-- `Object.entries` of a record whose properties were set in this order. -/
def ownProperties (fields : List (String × α)) : List (String × α) :=
  (fields.filter isIndex).insertionSort (indexLE · ·) ++ fields.filter (!isIndex ·)

variable (c : Collation)

def nameLE (a b : String × α) : Bool := c.localeCompare a.1 b.1 ≠ .gt

/-- `.sort(([a], [b]) => a.localeCompare(b))`, which is stable. -/
def sortNames (fields : List (String × α)) : List (String × α) :=
  fields.insertionSort (nameLE c · ·)

/-- The entries of the record that is built from the sorted entries. -/
def canonical (fields : List (String × α)) : List (String × α) :=
  ownProperties (sortNames c (ownProperties fields))

/-- The comparison tells the names apart, as far as their order depends on it. -/
def NoTies (names : List String) : Prop :=
  ∀ a ∈ names, ∀ b ∈ names, a ≠ b → index? a = none → index? b = none →
    c.localeCompare a b ≠ .eq

example : (ownProperties [("b", 0), ("10", 1), ("a", 2), ("9", 3), ("01", 4)]).map Prod.fst =
    ["9", "10", "b", "a", "01"] := by decide

/-! ### The same properties -/

theorem perm_ownProperties (fields : List (String × α)) : (ownProperties fields).Perm fields :=
  ((List.perm_insertionSort _ _).append_right _).trans (List.filter_append_perm _ _)

theorem perm_sortNames (fields : List (String × α)) : (sortNames c fields).Perm fields :=
  List.perm_insertionSort _ _

theorem perm_canonical (fields : List (String × α)) : (canonical c fields).Perm fields :=
  (perm_ownProperties _).trans ((perm_sortNames c _).trans (perm_ownProperties _))

/-! ### The order depends on the names only -/

theorem ownProperties_map (f : α → β) (fields : List (String × α)) :
    ownProperties (fields.map (Prod.map id f)) = (ownProperties fields).map (Prod.map id f) := by
  have hindices : (fields.map (Prod.map id f)).filter isIndex =
      (fields.filter isIndex).map (Prod.map id f) := List.filter_map
  have hnames : (fields.map (Prod.map id f)).filter (!isIndex ·) =
      (fields.filter (!isIndex ·)).map (Prod.map id f) := List.filter_map
  have hsorted : ((fields.filter isIndex).insertionSort (indexLE · ·)).map (Prod.map id f) =
      ((fields.filter isIndex).map (Prod.map id f)).insertionSort (indexLE · ·) :=
    List.map_insertionSort _ (indexLE · ·) _ _ fun _ _ _ _ => Iff.rfl
  rw [ownProperties, ownProperties, List.map_append, hindices, hnames, hsorted]

theorem sortNames_map (f : α → β) (fields : List (String × α)) :
    sortNames c (fields.map (Prod.map id f)) = (sortNames c fields).map (Prod.map id f) :=
  (List.map_insertionSort _ (nameLE c · ·) _ _ fun _ _ _ _ => Iff.rfl).symm

theorem canonical_map (f : α → β) (fields : List (String × α)) :
    canonical c (fields.map (Prod.map id f)) = (canonical c fields).map (Prod.map id f) := by
  rw [canonical, canonical, ownProperties_map, sortNames_map, ownProperties_map]

/-! ### One order for all -/

variable {c}

instance : Std.Total (fun a b : String × α => indexLE a b) where
  total a b := by
    simp only [indexLE, decide_eq_true_iff]
    exact Nat.le_total _ _

instance : IsTrans (String × α) (fun a b => indexLE a b) where
  trans a b d := by
    simp only [indexLE, decide_eq_true_iff]
    exact Nat.le_trans

instance : Std.Total (fun a b : String × α => nameLE c a b) where
  total a b := by
    simp only [nameLE, decide_eq_true_iff]
    rw [← c.swap b.1 a.1]
    cases c.localeCompare b.1 a.1 <;> simp

instance : IsTrans (String × α) (fun a b => nameLE c a b) where
  trans a b d hab hbd := by
    simp only [nameLE, decide_eq_true_iff] at *
    exact c.trans hab hbd

theorem localeCompare_eq_of_nameLE {a b : String × α} (hab : nameLE c a b) (hba : nameLE c b a) :
    c.localeCompare a.1 b.1 = .eq := by
  simp only [nameLE, decide_eq_true_iff] at hab hba
  rw [← c.swap a.1 b.1] at hba
  cases h : c.localeCompare a.1 b.1 with
  | eq => rfl
  | lt => rw [h] at hba; exact absurd rfl hba
  | gt => exact absurd h hab

theorem not_isIndex {field : String × α} : (!isIndex field) = true ↔ index? field.1 = none := by
  rw [isIndex]
  cases index? field.1 <;> simp

/-- Fields under different names are different fields. -/
theorem eq_of_name {fields : List (String × α)} (hnodup : (fields.map Prod.fst).Nodup)
    {a b : String × α} (ha : a ∈ fields) (hb : b ∈ fields) (h : a.1 = b.1) : a = b :=
  List.inj_on_of_nodup_map hnodup ha hb h

theorem canonical_eq_of_perm {fields fields' : List (String × α)} (h : fields.Perm fields')
    (hnodup : (fields.map Prod.fst).Nodup) (hties : NoTies c (fields.map Prod.fst)) :
    canonical c fields = canonical c fields' := by
  have hsorted : ∀ fields : List (String × α),
      (sortNames c (ownProperties fields)).Perm fields := fun fields =>
    (perm_sortNames c _).trans (perm_ownProperties _)
  have hperm := (hsorted fields).trans (h.trans (hsorted fields').symm)
  have hmem : ∀ a ∈ sortNames c (ownProperties fields), a ∈ fields := fun a ha =>
    (hsorted fields).mem_iff.1 ha
  rw [canonical, canonical, ownProperties, ownProperties]
  congr 1
  · have hfilter := hperm.filter isIndex
    refine List.Perm.eq_of_pairwise ?_
      (List.pairwise_insertionSort (indexLE · ·) _) (List.pairwise_insertionSort (indexLE · ·) _)
      ((List.perm_insertionSort _ _).trans (hfilter.trans (List.perm_insertionSort _ _).symm))
    intro a b ha hb hab hba
    obtain ⟨hafields, haindex⟩ := List.mem_filter.1 ((List.mem_insertionSort _).1 ha)
    obtain ⟨hbfields, hbindex⟩ :=
      List.mem_filter.1 (hfilter.mem_iff.2 ((List.mem_insertionSort _).1 hb))
    obtain ⟨n, hn⟩ := Option.isSome_iff_exists.1 haindex
    obtain ⟨m, hm⟩ := Option.isSome_iff_exists.1 hbindex
    simp only [indexLE, decide_eq_true_iff, hn, hm, Option.getD_some] at hab hba
    obtain rfl := Nat.le_antisymm hab hba
    exact eq_of_name hnodup (hmem a hafields) (hmem b hbfields) (index?_inj hn hm)
  · have hfilter := hperm.filter (!isIndex ·)
    refine List.Perm.eq_of_pairwise ?_
      ((List.pairwise_insertionSort (nameLE c · ·) _).sublist List.filter_sublist)
      ((List.pairwise_insertionSort _ _).sublist List.filter_sublist) hfilter
    intro a b ha hb hab hba
    obtain ⟨hafields, haname⟩ := List.mem_filter.1 ha
    obtain ⟨hbfields, hbname⟩ := List.mem_filter.1 (hfilter.mem_iff.2 hb)
    refine eq_of_name hnodup (hmem a hafields) (hmem b hbfields) ?_
    by_contra hne
    exact hties a.1 (List.mem_map_of_mem (hmem a hafields)) b.1
      (List.mem_map_of_mem (hmem b hbfields)) hne (not_isIndex.1 haname) (not_isIndex.1 hbname)
      (localeCompare_eq_of_nameLE hab hba)

/-- Names the comparison takes for one stay in the order in which they were set. -/
theorem tie_sublist {fields : List (String × α)} {a b : String × α} (h : [a, b].Sublist fields)
    (ha : index? a.1 = none) (hb : index? b.1 = none) (htie : c.localeCompare a.1 b.1 = .eq) :
    [a, b].Sublist (canonical c fields) := by
  have hnames : ∀ {l : List (String × α)}, [a, b].Sublist l →
      [a, b].Sublist (ownProperties l) := by
    intro l hl
    have hpair : [a, b].filter (!isIndex ·) = [a, b] :=
      List.filter_eq_self.2 (by simp [isIndex, ha, hb])
    exact (hpair ▸ hl.filter (!isIndex ·)).trans (List.sublist_append_right _ _)
  refine hnames (List.pair_sublist_insertionSort ?_ (hnames h))
  simp [nameLE, htie]

end HuntWarden.PropertyOrder
