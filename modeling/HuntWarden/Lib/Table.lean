import Mathlib.Data.List.Nodup
import Mathlib.Data.List.Perm.Basic
import Mathlib.Data.Multiset.Basic

/-! A keyed table: the rows of a database table in insertion order, no two with the same primary
    key. The key constraint is a field, so a table that violates it cannot be built. The writes are
    the database's own: insert, insert-or-ignore, insert-or-replace, and an update of every row that
    leaves the keys alone. -/

namespace HuntWarden

structure Table {κ ρ : Type} (key : ρ → κ) where
  rows : List ρ
  keyed : (rows.map key).Nodup

namespace Table

theorem nodup_map_concat {ρ β : Type} {f : ρ → β} {l : List ρ} {r : ρ} (h : (l.map f).Nodup)
    (hr : ∀ x ∈ l, f x ≠ f r) : ((l ++ [r]).map f).Nodup := by
  rw [List.map_append, List.map_singleton, List.nodup_append_comm, List.singleton_append,
    List.nodup_cons]
  exact ⟨fun hmem => by obtain ⟨x, hx, he⟩ := List.mem_map.1 hmem; exact hr x hx he, h⟩

variable {κ ρ : Type} {key : ρ → κ}

def empty : Table key := ⟨[], by simp⟩

@[simp] theorem rows_empty : (empty : Table key).rows = [] := rfl

theorem eq_of_key (t : Table key) {r r' : ρ} (h : r ∈ t.rows) (h' : r' ∈ t.rows)
    (hk : key r = key r') : r = r' :=
  List.inj_on_of_nodup_map t.keyed h h' hk

/-- `UPDATE`: every row rewritten, its key kept. -/
def mapRows (t : Table key) (f : ρ → ρ) (hf : ∀ r, key (f r) = key r) : Table key :=
  ⟨t.rows.map f, by
    rw [List.map_map, show key ∘ f = key from funext hf]; exact t.keyed⟩

@[simp] theorem rows_mapRows (t : Table key) (f : ρ → ρ) (hf : ∀ r, key (f r) = key r) :
    (t.mapRows f hf).rows = t.rows.map f := rfl

variable [DecidableEq κ]

/-- `SELECT … WHERE key = ?`. -/
def get? (t : Table key) (k : κ) : Option ρ := t.rows.find? fun r => key r = k

theorem get?_eq_some {t : Table key} {k : κ} {r : ρ} :
    t.get? k = some r ↔ r ∈ t.rows ∧ key r = k := by
  have hfound : ∀ {r'}, t.get? k = some r' → r' ∈ t.rows ∧ key r' = k := fun h =>
    ⟨List.mem_of_find?_eq_some h, by simpa using List.find?_some h⟩
  refine ⟨hfound, fun ⟨hr, hk⟩ => ?_⟩
  cases h : t.get? k with
  | none => exact absurd hk (by simpa using List.find?_eq_none.1 h r hr)
  | some r' => rw [t.eq_of_key (hfound h).1 hr ((hfound h).2.trans hk.symm)]

theorem get?_eq_none {t : Table key} {k : κ} : t.get? k = none ↔ ∀ r ∈ t.rows, key r ≠ k := by
  simp [get?]

theorem get?_of_mem {t : Table key} {r : ρ} (h : r ∈ t.rows) : t.get? (key r) = some r :=
  get?_eq_some.2 ⟨h, rfl⟩

/-- `INSERT`: refused when the key is taken. -/
def insert? (t : Table key) (r : ρ) : Option (Table key) :=
  if h : ∀ x ∈ t.rows, key x ≠ key r then
    some ⟨t.rows ++ [r], nodup_map_concat t.keyed h⟩
  else none

theorem insert?_eq_some {t t' : Table key} {r : ρ} (h : t.insert? r = some t') :
    (∀ x ∈ t.rows, key x ≠ key r) ∧ t'.rows = t.rows ++ [r] := by
  unfold insert? at h
  split at h
  · cases h; exact ⟨‹_›, rfl⟩
  · cases h

theorem insert?_eq_none {t : Table key} {r : ρ} :
    t.insert? r = none ↔ ∃ x ∈ t.rows, key x = key r := by
  simp [insert?]

/-- `INSERT OR IGNORE`. -/
def insertOrIgnore (t : Table key) (r : ρ) : Table key := (t.insert? r).getD t

theorem mem_insertOrIgnore {t : Table key} {r x : ρ} (h : x ∈ (t.insertOrIgnore r).rows) :
    x ∈ t.rows ∨ x = r ∧ ∀ y ∈ t.rows, key y ≠ key r := by
  unfold insertOrIgnore at h
  cases ht : t.insert? r with
  | none => rw [ht] at h; exact Or.inl h
  | some t' =>
    obtain ⟨hfresh, hrows⟩ := insert?_eq_some ht
    rw [ht] at h
    simp only [Option.getD_some, hrows, List.mem_append, List.mem_singleton] at h
    exact h.imp_right fun hx => ⟨hx, hfresh⟩

theorem mem_insertOrIgnore_of_mem {t : Table key} {r x : ρ} (h : x ∈ t.rows) :
    x ∈ (t.insertOrIgnore r).rows := by
  unfold insertOrIgnore
  cases ht : t.insert? r with
  | none => exact h
  | some t' => simp [(insert?_eq_some ht).2, h]

theorem key_mem_insertOrIgnore (t : Table key) (r : ρ) :
    ∃ x ∈ (t.insertOrIgnore r).rows, key x = key r := by
  unfold insertOrIgnore
  cases ht : t.insert? r with
  | none => exact insert?_eq_none.1 ht
  | some t' => exact ⟨r, by simp [(insert?_eq_some ht).2], rfl⟩

/-- The row with `r`'s key becomes `r`. -/
def replaceRow (key : ρ → κ) (r x : ρ) : ρ := if key x = key r then r else x

theorem key_replaceRow (key : ρ → κ) (r x : ρ) : key (replaceRow key r x) = key x := by
  unfold replaceRow; split
  · exact (‹key x = key r›).symm
  · rfl

/-- `UPDATE … WHERE key = ?` with the whole row given: nothing happens when the key is absent. -/
def set (t : Table key) (r : ρ) : Table key :=
  t.mapRows (replaceRow key r) (key_replaceRow key r)

/-- `INSERT OR REPLACE`. -/
def put (t : Table key) (r : ρ) : Table key := (t.set r).insertOrIgnore r

theorem mem_set {t : Table key} {r x : ρ} :
    x ∈ (t.set r).rows ↔ (x = r ∧ ∃ y ∈ t.rows, key y = key r) ∨ (x ∈ t.rows ∧ key x ≠ key r) := by
  simp only [set, rows_mapRows, List.mem_map, replaceRow]
  constructor
  · rintro ⟨y, hy, rfl⟩
    by_cases hk : key y = key r
    · rw [if_pos hk]; exact Or.inl ⟨rfl, y, hy, hk⟩
    · rw [if_neg hk]; exact Or.inr ⟨hy, hk⟩
  · rintro (⟨rfl, y, hy, hk⟩ | ⟨hx, hk⟩)
    · exact ⟨y, hy, by simp [hk]⟩
    · exact ⟨x, hx, by simp [hk]⟩

theorem mem_put {t : Table key} {r x : ρ} :
    x ∈ (t.put r).rows ↔ x = r ∨ (x ∈ t.rows ∧ key x ≠ key r) := by
  constructor
  · intro h
    rcases mem_insertOrIgnore h with h | ⟨rfl, _⟩
    · exact (mem_set.1 h).imp And.left id
    · exact Or.inl rfl
  · rintro (rfl | h)
    · obtain ⟨y, hy, hk⟩ := key_mem_insertOrIgnore (t.set x) x
      have hx : y = x := by
        rcases mem_insertOrIgnore hy with hy | ⟨rfl, _⟩
        · rcases mem_set.1 hy with ⟨rfl, _⟩ | ⟨_, hne⟩
          · rfl
          · exact absurd hk hne
        · rfl
      exact hx ▸ hy
    · exact mem_insertOrIgnore_of_mem (mem_set.2 (Or.inr h))

theorem get?_set_self {t : Table key} {r : ρ} (h : ∃ y ∈ t.rows, key y = key r) :
    (t.set r).get? (key r) = some r :=
  get?_eq_some.2 ⟨mem_set.2 (Or.inl ⟨rfl, h⟩), rfl⟩

theorem get?_set_of_ne {t : Table key} {r : ρ} {k : κ} (hk : k ≠ key r) :
    (t.set r).get? k = t.get? k := by
  ext x
  rw [get?_eq_some, get?_eq_some, mem_set]
  constructor
  · rintro ⟨⟨rfl, _⟩ | ⟨hx, _⟩, rfl⟩
    · exact absurd rfl hk
    · exact ⟨hx, rfl⟩
  · rintro ⟨hx, rfl⟩; exact ⟨Or.inr ⟨hx, hk⟩, rfl⟩

@[simp] theorem get?_put_self (t : Table key) (r : ρ) : (t.put r).get? (key r) = some r :=
  get?_eq_some.2 ⟨mem_put.2 (Or.inl rfl), rfl⟩

theorem get?_put_of_ne {t : Table key} {r : ρ} {k : κ} (hk : k ≠ key r) :
    (t.put r).get? k = t.get? k := by
  ext x
  rw [get?_eq_some, get?_eq_some, mem_put]
  constructor
  · rintro ⟨rfl | ⟨hx, _⟩, rfl⟩
    · exact absurd rfl hk
    · exact ⟨hx, rfl⟩
  · rintro ⟨hx, rfl⟩; exact ⟨Or.inr ⟨hx, hk⟩, rfl⟩

/-- Setting one row changes exactly that row of the multiset of rows. -/
theorem rows_set_multiset {t : Table key} {r r' : ρ} (h : r ∈ t.rows) (hk : key r' = key r) :
    ∃ rest : Multiset ρ, (t.rows : Multiset ρ) = r ::ₘ rest ∧
      ((t.set r').rows : Multiset ρ) = r' ::ₘ rest := by
  obtain ⟨pre, post, hsplit⟩ := List.append_of_mem h
  have hkeyed := t.keyed
  rw [hsplit, List.map_append, List.map_cons, List.nodup_middle, List.nodup_cons] at hkeyed
  have hother : ∀ x ∈ pre ++ post, replaceRow key r' x = x := by
    intro x hx
    have hne : key x ≠ key r := fun hxr =>
      hkeyed.1 (hxr ▸ by rw [← List.map_append]; exact List.mem_map_of_mem hx)
    simp [replaceRow, hk, hne]
  have hmap : ∀ {l : List ρ}, (∀ x ∈ l, x ∈ pre ++ post) → l.map (replaceRow key r') = l :=
    fun hl => (List.map_congr_left fun x hx => hother x (hl x hx)).trans (List.map_id _)
  refine ⟨↑(pre ++ post), ?_, ?_⟩
  · rw [hsplit, Multiset.cons_coe, Multiset.coe_eq_coe]; exact List.perm_middle
  · have hrow : replaceRow key r' r = r' := by simp [replaceRow, hk]
    simp only [set, rows_mapRows, hsplit, List.map_append, List.map_cons, hrow]
    rw [hmap fun x hx => List.mem_append_left _ hx, hmap fun x hx => List.mem_append_right _ hx]
    rw [Multiset.cons_coe, Multiset.coe_eq_coe]; exact List.perm_middle

end Table

/-- A table with a second `UNIQUE` column. -/
structure IndexedTable {κ α ρ : Type} (key : ρ → κ) (alt : ρ → α) extends Table key where
  distinct : (rows.map alt).Nodup

namespace IndexedTable

variable {κ α ρ : Type} {key : ρ → κ} {alt : ρ → α}

def empty : IndexedTable key alt := ⟨Table.empty, by simp⟩

@[simp] theorem rows_empty : (empty : IndexedTable key alt).rows = [] := rfl

/-- A rewriting of rows that keeps both columns. -/
structure Rewrite {κ α ρ : Type} (key : ρ → κ) (alt : ρ → α) where
  apply : ρ → ρ
  key_apply : ∀ r, key (apply r) = key r
  alt_apply : ∀ r, alt (apply r) = alt r

/-- `UPDATE … WHERE`: the selected rows are rewritten. -/
def modify (t : IndexedTable key alt) (selected : ρ → Bool) (f : Rewrite key alt) :
    IndexedTable key alt where
  rows := t.rows.map fun r => if selected r then f.apply r else r
  keyed := by
    rw [List.map_map, show (key ∘ fun r => if selected r then f.apply r else r) = key from
      funext fun r => by simp only [Function.comp]; split <;> simp [f.key_apply]]
    exact t.keyed
  distinct := by
    rw [List.map_map, show (alt ∘ fun r => if selected r then f.apply r else r) = alt from
      funext fun r => by simp only [Function.comp]; split <;> simp [f.alt_apply]]
    exact t.distinct

theorem mem_modify {t : IndexedTable key alt} {selected : ρ → Bool} {f : Rewrite key alt} {x : ρ} :
    x ∈ (t.modify selected f).rows ↔ ∃ r ∈ t.rows, (if selected r then f.apply r else r) = x := by
  simp [modify]

theorem exists_alt_modify {t : IndexedTable key alt} {selected : ρ → Bool} {f : Rewrite key alt}
    {a : α} : (∃ x ∈ (t.modify selected f).rows, alt x = a) ↔ ∃ x ∈ t.rows, alt x = a := by
  have halt : ∀ r, alt (if selected r then f.apply r else r) = alt r := fun r => by
    split <;> simp [f.alt_apply]
  constructor
  · rintro ⟨x, hx, ha⟩
    obtain ⟨r, hr, rfl⟩ := mem_modify.1 hx
    exact ⟨r, hr, (halt r).symm.trans ha⟩
  · rintro ⟨r, hr, ha⟩
    exact ⟨_, mem_modify.2 ⟨r, hr, rfl⟩, (halt r).trans ha⟩

theorem eq_of_alt (t : IndexedTable key alt) {r r' : ρ} (h : r ∈ t.rows) (h' : r' ∈ t.rows)
    (ha : alt r = alt r') : r = r' :=
  List.inj_on_of_nodup_map t.distinct h h' ha

variable [DecidableEq κ]

theorem get?_modify {t : IndexedTable key alt} {selected : ρ → Bool} {f : Rewrite key alt} (k : κ) :
    (t.modify selected f).get? k = (t.get? k).map fun r => if selected r then f.apply r else r := by
  have hkey : ∀ r, key (if selected r then f.apply r else r) = key r := fun r => by
    split <;> simp [f.key_apply]
  ext x
  simp only [Table.get?_eq_some, mem_modify, Option.map_eq_some_iff]
  constructor
  · rintro ⟨⟨y, hy, rfl⟩, rfl⟩; exact ⟨y, ⟨hy, (hkey y).symm⟩, rfl⟩
  · rintro ⟨y, ⟨hy, rfl⟩, rfl⟩; exact ⟨⟨y, hy, rfl⟩, hkey y⟩

variable [DecidableEq α]

/-- `INSERT OR REPLACE`: every row that conflicts on either column goes, and the row is added. -/
def replace (t : IndexedTable key alt) (r : ρ) : IndexedTable key alt where
  rows := (t.rows.filter fun x => key x ≠ key r ∧ alt x ≠ alt r) ++ [r]
  keyed := Table.nodup_map_concat (t.keyed.sublist (List.filter_sublist.map _))
    fun _ hx => (of_decide_eq_true (List.mem_filter.1 hx).2).1
  distinct := Table.nodup_map_concat (t.distinct.sublist (List.filter_sublist.map _))
    fun _ hx => (of_decide_eq_true (List.mem_filter.1 hx).2).2

theorem mem_replace {t : IndexedTable key alt} {r x : ρ} :
    x ∈ (t.replace r).rows ↔ x = r ∨ (x ∈ t.rows ∧ key x ≠ key r ∧ alt x ≠ alt r) := by
  simp [replace, or_comm]

/-- When only the row of the same key shares the other column, replacing touches that row alone. -/
theorem get?_replace {t : IndexedTable key alt} {r : ρ}
    (h : ∀ x ∈ t.rows, alt x = alt r → key x = key r) (k : κ) :
    (t.replace r).get? k = if k = key r then some r else t.get? k := by
  by_cases hk : k = key r
  · rw [if_pos hk]; exact Table.get?_eq_some.2 ⟨mem_replace.2 (Or.inl rfl), hk.symm⟩
  · rw [if_neg hk]
    ext x
    rw [Table.get?_eq_some, Table.get?_eq_some, mem_replace]
    constructor
    · rintro ⟨rfl | ⟨hx, -⟩, rfl⟩
      · exact absurd rfl hk
      · exact ⟨hx, rfl⟩
    · rintro ⟨hx, rfl⟩; exact ⟨Or.inr ⟨hx, hk, fun ha => hk (h x hx ha)⟩, rfl⟩

/-- `INSERT`: refused when either column is taken. -/
def insert? (t : IndexedTable key alt) (r : ρ) : Option (IndexedTable key alt) :=
  if h : ∀ x ∈ t.rows, key x ≠ key r ∧ alt x ≠ alt r then
    some { rows := t.rows ++ [r]
           keyed := Table.nodup_map_concat t.keyed fun x hx => (h x hx).1
           distinct := Table.nodup_map_concat t.distinct fun x hx => (h x hx).2 }
  else none

theorem insert?_eq_some {t t' : IndexedTable key alt} {r : ρ} (h : t.insert? r = some t') :
    (∀ x ∈ t.rows, key x ≠ key r ∧ alt x ≠ alt r) ∧ t'.rows = t.rows ++ [r] := by
  unfold insert? at h
  split at h
  · cases h; exact ⟨‹_›, rfl⟩
  · cases h

/-- `INSERT OR IGNORE`: refused when either column is taken. -/
def insertOrIgnore (t : IndexedTable key alt) (r : ρ) : IndexedTable key alt :=
  if h : ∀ x ∈ t.rows, key x ≠ key r ∧ alt x ≠ alt r then
    { rows := t.rows ++ [r]
      keyed := Table.nodup_map_concat t.keyed fun x hx => (h x hx).1
      distinct := Table.nodup_map_concat t.distinct fun x hx => (h x hx).2 }
  else t

theorem insertOrIgnore_fresh {t : IndexedTable key alt} {r : ρ}
    (h : ∀ x ∈ t.rows, key x ≠ key r ∧ alt x ≠ alt r) :
    (t.insertOrIgnore r).rows = t.rows ++ [r] := by
  rw [insertOrIgnore, dif_pos h]

theorem insertOrIgnore_taken {t : IndexedTable key alt} {r : ρ}
    (h : ¬ ∀ x ∈ t.rows, key x ≠ key r ∧ alt x ≠ alt r) : t.insertOrIgnore r = t := by
  rw [insertOrIgnore, dif_neg h]

/-- Rows with new and distinct keys are all inserted. -/
theorem rows_insertAll {t : IndexedTable key alt} {rows : List ρ}
    (hfresh : ∀ r ∈ rows, ∀ x ∈ t.rows, key x ≠ key r ∧ alt x ≠ alt r)
    (hkeys : (rows.map key).Nodup) (halts : (rows.map alt).Nodup) :
    (rows.foldl (fun t r => t.insertOrIgnore r) t).rows = t.rows ++ rows := by
  induction rows generalizing t with
  | nil => exact (List.append_nil _).symm
  | cons r rest ih =>
    rw [List.map_cons, List.nodup_cons] at hkeys halts
    have hrows := insertOrIgnore_fresh (hfresh r List.mem_cons_self)
    rw [List.foldl_cons, ih ?_ hkeys.2 halts.2, hrows, List.append_assoc, List.singleton_append]
    intro r' hr' x hx
    rw [hrows] at hx
    rcases List.mem_append.1 hx with hold | hnew
    · exact hfresh r' (List.mem_cons_of_mem _ hr') x hold
    · obtain rfl := List.mem_singleton.1 hnew
      exact ⟨fun h => hkeys.1 (h ▸ List.mem_map_of_mem hr'),
        fun h => halts.1 (h ▸ List.mem_map_of_mem hr')⟩

end IndexedTable

end HuntWarden
