import Mathlib.Tactic

/-! Tables with a primary key. The rows stand in the order in which they were inserted; an update
keeps their keys and their places. -/
namespace Tables

/-- Rows with pairwise different keys. -/
structure Table {R K : Type*} (key : R → K) where
  rows : List R
  unique : (rows.map key).Nodup

namespace Table

variable {R K : Type*} {key : R → K} {t : Table key} {r r' : R} {p : R → Bool} {f : R → R}

theorem ext_rows {t t' : Table key} (h : t.rows = t'.rows) : t = t' := by
  cases t
  cases t'
  congr

def empty : Table key := ⟨[], List.nodup_nil⟩

/-- The row with a key. -/
def find [DecidableEq K] (t : Table key) (k : K) : Option R := t.rows.find? fun r => key r = k

/-- `INSERT`: fails for a key that is taken. -/
def insert [DecidableEq K] (t : Table key) (r : R) : Option (Table key) :=
  if h : key r ∈ t.rows.map key then none
  else some ⟨t.rows ++ [r], by
    rw [List.map_append, List.map_singleton]
    exact t.unique.append (List.nodup_singleton _) fun k hk hk' =>
      h (List.mem_singleton.mp hk' ▸ hk)⟩

/-- `UPDATE .. SET f WHERE p`. -/
def update (t : Table key) (p : R → Bool) (f : R → R) (hf : ∀ r, key (f r) = key r) : Table key :=
  ⟨t.rows.map fun r => if p r then f r else r, by
    have hkeys : (t.rows.map fun r => if p r then f r else r).map key = t.rows.map key := by
      rw [List.map_map]
      refine List.map_congr_left fun r _ => ?_
      rw [Function.comp_apply]
      split_ifs
      · exact hf r
      · rfl
    rw [hkeys]
    exact t.unique⟩

/-- `DELETE .. WHERE p`. -/
def delete (t : Table key) (p : R → Bool) : Table key :=
  ⟨t.rows.filter fun r => !p r, t.unique.sublist (List.filter_sublist.map key)⟩

/-- The row takes the place of the one with its key, as in a map. -/
def put [DecidableEq K] (t : Table key) (r : R) : Table key :=
  ⟨r :: t.rows.filter fun r' => key r' ≠ key r, by
    rw [List.map_cons, List.nodup_cons]
    constructor
    · intro hmem
      obtain ⟨r', hr', he⟩ := List.mem_map.mp hmem
      exact absurd he (by simpa using (List.mem_filter.mp hr').2)
    · exact t.unique.sublist (List.filter_sublist.map key)⟩

/-- The number of rows that a condition selects. -/
def count (t : Table key) (p : R → Bool) : ℕ := t.rows.countP p

theorem eq_of_key (hr : r ∈ t.rows) (hr' : r' ∈ t.rows) (h : key r = key r') : r = r' :=
  List.inj_on_of_nodup_map t.unique hr hr' h

theorem rows_nodup (t : Table key) : t.rows.Nodup := List.Nodup.of_map key t.unique

theorem find_eq_some [DecidableEq K] {k : K} :
    t.find k = some r ↔ r ∈ t.rows ∧ key r = k := by
  constructor
  · intro h
    exact ⟨List.mem_of_find?_eq_some h, by simpa using List.find?_some h⟩
  · rintro ⟨hr, hk⟩
    unfold find
    cases hfind : t.rows.find? fun r => key r = k with
    | none =>
      rw [List.find?_eq_none] at hfind
      exact absurd (by simpa using hk) (hfind r hr)
    | some r₀ =>
      have hkey : key r₀ = k := by simpa using List.find?_some hfind
      rw [eq_of_key (List.mem_of_find?_eq_some hfind) hr (hkey.trans hk.symm)]

theorem find_eq_none [DecidableEq K] {k : K} : t.find k = none ↔ ∀ r ∈ t.rows, key r ≠ k := by
  unfold find
  simp only [List.find?_eq_none, decide_eq_true_eq, ne_eq]

theorem insert_eq_some [DecidableEq K] {t' : Table key} (h : t.insert r = some t') :
    t'.rows = t.rows ++ [r] ∧ ∀ r' ∈ t.rows, key r' ≠ key r := by
  unfold insert at h
  split_ifs at h with hkey
  obtain rfl := Option.some.inj h
  refine ⟨rfl, fun r' hr' he => hkey ?_⟩
  rw [← he]
  exact List.mem_map_of_mem hr'

/-- An insertion fails exactly when there is a row with the key. -/
theorem insert_eq_none [DecidableEq K] : t.insert r = none ↔ t.find (key r) ≠ none := by
  rw [ne_eq, find_eq_none]
  push Not
  unfold insert
  split_ifs with hkey
  · exact ⟨fun _ => List.mem_map.mp hkey, fun _ => rfl⟩
  · exact ⟨fun h => absurd h (by simp), fun h => absurd (List.mem_map.mpr h) hkey⟩

theorem find_insert_of_ne [DecidableEq K] {t' : Table key} {k : K} (h : t.insert r = some t')
    (hk : key r ≠ k) : t'.find k = t.find k := by
  unfold find
  rw [(insert_eq_some h).1, List.find?_append, List.find?_singleton, decide_eq_false hk]
  exact Option.or_none

theorem mem_update {hf : ∀ r, key (f r) = key r} :
    r' ∈ (t.update p f hf).rows ↔ ∃ r ∈ t.rows, (if p r then f r else r) = r' :=
  List.mem_map

theorem mem_delete : r ∈ (t.delete p).rows ↔ r ∈ t.rows ∧ p r = false := by
  simp only [delete, List.mem_filter, Bool.not_eq_true']

theorem find_put [DecidableEq K] (k : K) :
    (t.put r).find k = if key r = k then some r else t.find k := by
  simp only [find, put, List.find?_cons]
  split_ifs with hk
  · simp [hk]
  · rw [decide_eq_false hk, List.find?_filter]
    simp only [ne_eq, decide_not, Bool.not_eq_eq_eq_not, Bool.not_true, decide_eq_false_iff_not]
    congr 1
    funext r'
    by_cases hk' : key r' = k
    · simp [hk', Ne.symm hk]
    · simp [hk']

theorem find_delete_key [DecidableEq K] (k k' : K) :
    (t.delete fun r => key r = k).find k' = if k = k' then none else t.find k' := by
  simp only [find, delete, List.find?_filter]
  split_ifs with hk
  · subst hk
    rw [List.find?_eq_none]
    intro r hr
    simp
  · congr 1
    funext r'
    by_cases hk' : key r' = k'
    · simp [hk', Ne.symm hk]
    · simp [hk']

theorem count_eq_zero : t.count p = 0 ↔ ∀ r ∈ t.rows, p r = false := by
  simp only [count, List.countP_eq_zero, Bool.not_eq_true]

/-- An update that selects no row changes nothing. -/
theorem update_of_count_eq_zero {hf : ∀ r, key (f r) = key r} (h : t.count p = 0) :
    t.update p f hf = t := by
  apply ext_rows
  have hsame : (t.rows.map fun r => if p r then f r else r) = t.rows.map id :=
    List.map_congr_left fun r hr => if_neg (by simp [count_eq_zero.mp h r hr])
  exact hsame.trans (List.map_id _)

theorem delete_of_count_eq_zero (h : t.count p = 0) : t.delete p = t := by
  apply ext_rows
  exact List.filter_eq_self.mpr fun r hr => by rw [count_eq_zero.mp h r hr, Bool.not_false]

end Table
end Tables
