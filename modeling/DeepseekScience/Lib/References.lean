import DeepseekScience.Lib.Table

/-! Foreign keys: a column of one table with keys of another one, the check that a statement makes
on it, and what a deletion in the other table does to the rows that refer to it. -/
namespace Tables

section
variable {R R' K K' : Type*} {key : R → K} {key' : R' → K'}

/-- Every value in the column is a key of the other table. -/
def References (child : Table key) (ref : R → Option K') (parent : Table key') : Prop :=
  ∀ r ∈ child.rows, ∀ k, ref r = some k → ∃ r' ∈ parent.rows, key' r' = k

variable {child child' : Table key} {ref : R → Option K'} {parent parent' : Table key'} {k : K'}

/-- The other table may lose no key. -/
theorem References.grow (h : References child ref parent)
    (hkeys : ∀ r ∈ parent.rows, ∃ r' ∈ parent'.rows, key' r' = key' r) :
    References child ref parent' := by
  intro r hr k hk
  obtain ⟨r', hr', rfl⟩ := h r hr k hk
  exact hkeys r' hr'

variable [DecidableEq K']

/-- The check of a value; `NULL` passes. -/
def resolves (parent : Table key') : Option K' → Bool
  | none => true
  | some k => (parent.find k).isSome

/-- `ON DELETE SET NULL`. -/
def setNull (child : Table key) (ref : R → Option K') (k : K') (clear : R → R)
    (hclear : ∀ r, key (clear r) = key r) : Table key :=
  child.update (fun r => decide (ref r = some k)) clear hclear

/-- `ON DELETE CASCADE`. -/
def cascade (child : Table key) (ref : R → Option K') (k : K') : Table key :=
  child.delete fun r => decide (ref r = some k)

theorem resolves_some : resolves parent (some k) = true ↔ ∃ r ∈ parent.rows, key' r = k := by
  simp only [resolves, Option.isSome_iff_exists, Table.find_eq_some]

theorem References.of_rows (h : References child ref parent)
    (hrows : ∀ r ∈ child'.rows, (∃ r₀ ∈ child.rows, ref r = ref r₀) ∨
      resolves parent (ref r) = true) : References child' ref parent := by
  intro r hr k hk
  obtain ⟨r₀, hr₀, hsame⟩ | hresolves := hrows r hr
  · exact h r₀ hr₀ k (hsame ▸ hk)
  · rw [hk] at hresolves
    exact resolves_some.mp hresolves

theorem References.insert [DecidableEq K] {r : R} (h : References child ref parent)
    (hinsert : child.insert r = some child') (hr : resolves parent (ref r) = true) :
    References child' ref parent := by
  apply h.of_rows
  intro r' hr'
  rw [(Table.insert_eq_some hinsert).1] at hr'
  obtain hold | hnew := List.mem_append.mp hr'
  · exact Or.inl ⟨r', hold, rfl⟩
  · rw [List.mem_singleton.mp hnew]
    exact Or.inr hr

theorem References.update {p : R → Bool} {f : R → R} (h : References child ref parent)
    (hf : ∀ r, key (f r) = key r)
    (hrows : ∀ r ∈ child.rows, p r = true → ref (f r) = ref r ∨ resolves parent (ref (f r)) = true) :
    References (child.update p f hf) ref parent := by
  apply h.of_rows
  intro r' hr'
  obtain ⟨r, hr, rfl⟩ := Table.mem_update.mp hr'
  split
  · rename_i hp
    obtain hsame | hresolves := hrows r hr hp
    · exact Or.inl ⟨r, hr, hsame⟩
    · exact Or.inr hresolves
  · exact Or.inl ⟨r, hr, rfl⟩

theorem References.delete {p : R → Bool} (h : References child ref parent) :
    References (child.delete p) ref parent :=
  h.of_rows fun r hr => Or.inl ⟨r, (Table.mem_delete.mp hr).1, rfl⟩

/-- What becomes of a row in an update. -/
theorem mem_update_of_mem {p : R → Bool} {f : R → R} (hf : ∀ r, key (f r) = key r) {r : R}
    (hr : r ∈ child.rows) : (if p r then f r else r) ∈ (child.update p f hf).rows :=
  Table.mem_update.mpr ⟨r, hr, rfl⟩

theorem keys_update {p : R → Bool} {f : R → R} (hf : ∀ r, key (f r) = key r) :
    ∀ r ∈ child.rows, ∃ r' ∈ (child.update p f hf).rows, key r' = key r := by
  intro r hr
  refine ⟨_, mem_update_of_mem hf hr, ?_⟩
  split
  · exact hf r
  · rfl

theorem mem_insert_of_mem [DecidableEq K] {r r' : R} (hinsert : child.insert r = some child')
    (hr' : r' ∈ child.rows) : r' ∈ child'.rows := by
  rw [(Table.insert_eq_some hinsert).1]
  exact List.mem_append_left _ hr'

theorem keys_insert [DecidableEq K] {r : R} (hinsert : child.insert r = some child') :
    ∀ r ∈ child.rows, ∃ r' ∈ child'.rows, key r' = key r :=
  fun r hr => ⟨r, mem_insert_of_mem hinsert hr, rfl⟩

theorem mem_delete_of_not {p : R → Prop} [DecidablePred p] {r : R} (hr : r ∈ child.rows)
    (hp : ¬ p r) : r ∈ (child.delete fun r => decide (p r)).rows :=
  Table.mem_delete.mpr ⟨hr, decide_eq_false hp⟩

/-- A deletion that nothing refers to. -/
theorem References.delete_parent (h : References child ref parent)
    (hfree : ∀ r ∈ child.rows, ref r ≠ some k) :
    References child ref (parent.delete fun r => decide (key' r = k)) := by
  intro r hr k' hk'
  obtain ⟨r', hr', rfl⟩ := h r hr k' hk'
  exact ⟨r', mem_delete_of_not hr' fun heq => hfree r hr (by rw [hk', heq]), rfl⟩

theorem References.setNull {clear : R → R} (h : References child ref parent)
    (hclear : ∀ r, key (clear r) = key r) (hnone : ∀ r, ref (clear r) = none) :
    References (setNull child ref k clear hclear) ref
      (parent.delete fun r => decide (key' r = k)) := by
  apply References.delete_parent
  · exact h.update hclear fun r _ _ => Or.inr (by rw [hnone, resolves])
  · intro r hr
    obtain ⟨r₀, hr₀, rfl⟩ := Table.mem_update.mp hr
    split
    · simp [hnone]
    · simp_all

/-- The other columns of the referring rows stay. -/
theorem References.setNull_other {R'' K'' : Type*} {key'' : R'' → K''} {other : Table key''}
    {ref'' : R → Option K''} {clear : R → R} (h : References child ref'' other)
    (hclear : ∀ r, key (clear r) = key r) (hkeeps : ∀ r, ref'' (clear r) = ref'' r) :
    References (Tables.setNull child ref k clear hclear) ref'' other := by
  intro r hr k'' hk''
  obtain ⟨r₀, hr₀, rfl⟩ := Table.mem_update.mp hr
  split at hk''
  · exact h r₀ hr₀ k'' (by rw [← hkeeps, hk''])
  · exact h r₀ hr₀ k'' hk''

theorem mem_setNull_of_mem {clear : R → R} (hclear : ∀ r, key (clear r) = key r) {r : R}
    (hr : r ∈ child.rows) :
    (if ref r = some k then clear r else r) ∈ (setNull child ref k clear hclear).rows := by
  simpa only [setNull, decide_eq_true_eq] using
    mem_update_of_mem (p := fun r => decide (ref r = some k)) hclear hr

theorem References.cascade (h : References child ref parent) :
    References (cascade child ref k) ref (parent.delete fun r => decide (key' r = k)) := by
  apply References.delete_parent h.delete
  intro r hr
  simpa [Tables.cascade, Table.mem_delete] using (Table.mem_delete.mp hr).2

end
end Tables
