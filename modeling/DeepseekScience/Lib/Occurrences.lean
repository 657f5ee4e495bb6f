import Mathlib.Tactic

/-! The places of a pattern in a sequence, as a search finds them that goes on behind each place,
and walks over the elements of a kind. -/
namespace Occurrences

variable {α : Type*} {pattern l : List α} {i j start : ℕ} {p : α → Bool}

/-- The pattern stands at a place. -/
def Occurs (pattern l : List α) (i : ℕ) : Prop := pattern <+: l.drop i

theorem occurs_drop : Occurs pattern (l.drop start) i ↔ Occurs pattern l (start + i) := by
  unfold Occurs
  rw [List.drop_drop]

theorem Occurs.le_length (h : Occurs pattern l i) (hne : pattern ≠ []) :
    i + pattern.length ≤ l.length := by
  have hlength := h.length_le
  have hpos := List.length_pos_of_ne_nil hne
  rw [List.length_drop] at hlength
  omega

/-- The element at a place of the pattern. -/
theorem Occurs.getElem? (h : Occurs pattern l i) (hj : j < pattern.length) :
    l[i + j]? = pattern[j]? := by
  obtain ⟨rest, hrest⟩ := h
  rw [← List.getElem?_drop, ← hrest, List.getElem?_append_left hj]

section
variable [DecidableEq α]

/-- The first place of a pattern. -/
def first (pattern : List α) : List α → Option ℕ
  | [] => none
  | a :: l => if pattern.isPrefixOf (a :: l) then some 0 else (first pattern l).map (· + 1)

theorem first_eq_some (hne : pattern ≠ []) :
    first pattern l = some i ↔ Occurs pattern l i ∧ ∀ j < i, ¬ Occurs pattern l j := by
  induction l generalizing i with
  | nil =>
    refine ⟨fun h => absurd h (by simp [first]), fun h => ?_⟩
    have hnil := h.1
    unfold Occurs at hnil
    rw [List.drop_nil, List.prefix_nil] at hnil
    exact absurd hnil hne
  | cons a l ih =>
    have hstep : ∀ j, Occurs pattern (a :: l) (j + 1) ↔ Occurs pattern l j := fun j => Iff.rfl
    rw [first]
    split_ifs with hhead
    · have hzero : Occurs pattern (a :: l) 0 := List.isPrefixOf_iff_prefix.mp hhead
      constructor
      · intro h
        obtain rfl : 0 = i := Option.some.inj h
        exact ⟨hzero, fun j hj => absurd hj (Nat.not_lt_zero j)⟩
      · rintro ⟨-, hbefore⟩
        rcases Nat.eq_zero_or_pos i with rfl | hpos
        · rfl
        · exact absurd hzero (hbefore 0 hpos)
    · have hzero : ¬ Occurs pattern (a :: l) 0 := fun h =>
        hhead (List.isPrefixOf_iff_prefix.mpr h)
      rw [Option.map_eq_some_iff]
      constructor
      · rintro ⟨k, hk, rfl⟩
        obtain ⟨hoccurs, hbefore⟩ := ih.mp hk
        refine ⟨(hstep k).mpr hoccurs, fun j hj => ?_⟩
        cases j with
        | zero => exact hzero
        | succ j => exact fun h => hbefore j (by omega) ((hstep j).mp h)
      · rintro ⟨hoccurs, hbefore⟩
        cases i with
        | zero => exact absurd hoccurs hzero
        | succ k =>
          refine ⟨k, ih.mpr ⟨(hstep k).mp hoccurs, fun j hj h => ?_⟩, rfl⟩
          exact hbefore (j + 1) (by omega) ((hstep j).mpr h)

theorem first_eq_none (hne : pattern ≠ []) :
    first pattern l = none ↔ ∀ i, ¬ Occurs pattern l i := by
  constructor
  · intro h i hi
    classical
    have hexists : ∃ i, Occurs pattern l i := ⟨i, hi⟩
    have hfound := (first_eq_some hne).mpr
      ⟨Nat.find_spec hexists, fun j hj => Nat.find_min hexists hj⟩
    rw [h] at hfound
    exact absurd hfound (by simp)
  · intro h
    cases hfirst : first pattern l with
    | none => rfl
    | some i => exact absurd ((first_eq_some hne).mp hfirst).1 (h i)

/-- The places that a search finds which goes on behind each of them; none when the fuel is
spent. -/
def search (pattern l : List α) : ℕ → ℕ → Option (List ℕ)
  | 0, _ => none
  | fuel + 1, start =>
    match first pattern (l.drop start) with
    | none => some []
    | some relative =>
      (search pattern l fuel (start + relative + pattern.length)).map
        ((start + relative) :: ·)

end

/-- No end of the pattern is a beginning of it. -/
def Borderless (pattern : List α) : Prop :=
  ∀ k, 0 < k → k < pattern.length → ¬ pattern.drop k <+: pattern

theorem Borderless.not_occurs (h : Borderless pattern) (hi : Occurs pattern l i) (hlt : i < j)
    (hj : j < i + pattern.length) : ¬ Occurs pattern l j := by
  intro hother
  obtain ⟨k, rfl⟩ : ∃ k, j = i + k := ⟨j - i, by omega⟩
  have hback : pattern.drop k <+: l.drop (i + k) := by
    rw [← List.drop_drop]
    exact List.IsPrefix.drop hi k
  exact h k (by omega) (by omega)
    (List.prefix_of_prefix_length_le hback hother (by rw [List.length_drop]; omega))

/-- The search of a pattern without a border ends and finds every place, by induction on the
fuel. -/
theorem search_spec [DecidableEq α] (hne : pattern ≠ []) (hborder : Borderless pattern)
    {fuel : ℕ} (hle : start ≤ l.length) (hfuel : l.length < fuel + start) :
    ∃ places, search pattern l fuel start = some places ∧
      ∀ i, i ∈ places ↔ start ≤ i ∧ Occurs pattern l i := by
  induction fuel generalizing start with
  | zero => omega
  | succ fuel ih =>
    rw [search]
    cases hfirst : first pattern (l.drop start) with
    | none =>
      refine ⟨[], rfl, fun i => ⟨fun hi => absurd hi List.not_mem_nil, ?_⟩⟩
      rintro ⟨hi, hoccurs⟩
      obtain ⟨k, rfl⟩ : ∃ k, i = start + k := ⟨i - start, by omega⟩
      exact absurd (occurs_drop.mpr hoccurs) ((first_eq_none hne).mp hfirst k)
    | some relative =>
      obtain ⟨hoccurs, hbefore⟩ := (first_eq_some hne).mp hfirst
      rw [occurs_drop] at hoccurs
      have hend := hoccurs.le_length hne
      have hlength := List.length_pos_of_ne_nil hne
      obtain ⟨places, hplaces, hmem⟩ := ih hend (by omega)
      refine ⟨(start + relative) :: places, by simp [hplaces], fun i => ?_⟩
      rw [List.mem_cons, hmem]
      constructor
      · rintro (rfl | ⟨hi, hi'⟩)
        · exact ⟨by omega, hoccurs⟩
        · exact ⟨by omega, hi'⟩
      · rintro ⟨hi, hi'⟩
        rcases lt_trichotomy i (start + relative) with hlt | heq | hgt
        · obtain ⟨k, rfl⟩ : ∃ k, i = start + k := ⟨i - start, by omega⟩
          exact absurd (occurs_drop.mpr hi') (hbefore k (by omega))
        · exact Or.inl heq
        · refine Or.inr ⟨?_, hi'⟩
          by_contra hinside
          exact hborder.not_occurs hoccurs hgt (by omega) hi'

/-! Walking over elements of a kind. -/

/-- The first place from a given one on where the kind ends. -/
def skipWhile (p : α → Bool) (l : List α) (i : ℕ) : ℕ := i + ((l.drop i).takeWhile p).length

theorem le_skipWhile (p : α → Bool) (l : List α) (i : ℕ) : i ≤ skipWhile p l i :=
  Nat.le_add_right ..

theorem skipWhile_le (h : i ≤ l.length) : skipWhile p l i ≤ l.length := by
  have htake := (List.takeWhile_prefix p (l := l.drop i)).length_le
  rw [List.length_drop] at htake
  unfold skipWhile
  omega

/-- What is walked over is of the kind. -/
theorem of_lt_skipWhile {a : α} (hij : i ≤ j) (hj : j < skipWhile p l i) (ha : l[j]? = some a) :
    p a = true := by
  obtain ⟨k, rfl⟩ : ∃ k, j = i + k := ⟨j - i, by omega⟩
  have hk : k < ((l.drop i).takeWhile p).length := by
    unfold skipWhile at hj
    omega
  rw [← List.getElem?_drop] at ha
  clear hij hj
  generalize l.drop i = m at ha hk
  induction m generalizing k with
  | nil => exact absurd ha (by simp)
  | cons b m ih =>
    rw [List.takeWhile_cons] at hk
    split_ifs at hk with hb
    · cases k with
      | zero =>
        obtain rfl : b = a := by simpa using ha
        exact hb
      | succ k => exact ih k ha (by simpa using hk)
    · exact absurd hk (by simp)

/-- Where the walk ends the kind does. -/
theorem at_skipWhile {a : α} (ha : l[skipWhile p l i]? = some a) : p a = false := by
  unfold skipWhile at ha
  rw [← List.getElem?_drop] at ha
  generalize l.drop i = m at ha
  induction m with
  | nil => exact absurd ha (by simp)
  | cons b m ih =>
    rw [List.takeWhile_cons] at ha
    split_ifs at ha with hb
    · exact ih ha
    · obtain rfl : b = a := by simpa using ha
      simpa using hb

/-- A place where the kind ends bounds the walk. -/
theorem skipWhile_le_of_not {a : α} (hij : i ≤ j) (ha : l[j]? = some a) (hp : p a = false) :
    skipWhile p l i ≤ j := by
  by_contra hlt
  have hkind : p a = true := of_lt_skipWhile hij (by omega) ha
  rw [hp] at hkind
  exact absurd hkind (by simp)

end Occurrences
