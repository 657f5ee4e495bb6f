import Mathlib.Tactic

/-! Ranges of places, from a first one up to another one that is not in it, and the union of
overlapping ones that stand in the order of their beginnings. -/
namespace Ranges

variable {ranges : List (ℕ × ℕ)} {r last : ℕ × ℕ} {i : ℕ}

/-- A place lies in one of the ranges. -/
def Covered (ranges : List (ℕ × ℕ)) (i : ℕ) : Prop := ∃ r ∈ ranges, r.1 ≤ i ∧ i < r.2

theorem covered_cons : Covered (r :: ranges) i ↔ (r.1 ≤ i ∧ i < r.2) ∨ Covered ranges i := by
  simp only [Covered, List.mem_cons, exists_eq_or_imp]

/-- Join a range with those behind it that begin inside it or right at its end. -/
def mergeInto : ℕ × ℕ → List (ℕ × ℕ) → List (ℕ × ℕ)
  | last, [] => [last]
  | last, r :: rest =>
    if r.1 ≤ last.2 then mergeInto (last.1, max last.2 r.2) rest else last :: mergeInto r rest

def merge : List (ℕ × ℕ) → List (ℕ × ℕ)
  | [] => []
  | r :: rest => mergeInto r rest

/-- Ranges with something in them, that begin in order. -/
structure Ordered (ranges : List (ℕ × ℕ)) : Prop where
  begins : ranges.Pairwise fun r r' => r.1 ≤ r'.1
  nonempty : ∀ r ∈ ranges, r.1 < r.2

/-- Ranges with something in them, that stand apart from each other. -/
structure Apart (ranges : List (ℕ × ℕ)) : Prop where
  gaps : ranges.Pairwise fun r r' => r.2 < r'.1
  nonempty : ∀ r ∈ ranges, r.1 < r.2

theorem Ordered.tail (h : Ordered (r :: ranges)) : Ordered ranges :=
  ⟨h.begins.of_cons, fun s hs => h.nonempty s (List.mem_cons_of_mem _ hs)⟩

/-- A joined range still begins in order. -/
theorem Ordered.join (h : Ordered (last :: r :: ranges)) :
    Ordered ((last.1, max last.2 r.2) :: ranges) := by
  obtain ⟨hlast, hrest⟩ := List.pairwise_cons.mp h.begins
  refine ⟨List.pairwise_cons.mpr ⟨fun s hs => hlast s (List.mem_cons_of_mem _ hs),
    hrest.of_cons⟩, ?_⟩
  intro s hs
  rcases List.mem_cons.mp hs with rfl | hs
  · have hne := h.nonempty last (List.mem_cons_self ..)
    exact lt_of_lt_of_le hne (le_max_left ..)
  · exact h.nonempty s (List.mem_cons_of_mem _ (List.mem_cons_of_mem _ hs))

/-- Joining keeps the places. -/
theorem covered_mergeInto (h : Ordered (last :: ranges)) :
    Covered (mergeInto last ranges) i ↔ Covered (last :: ranges) i := by
  induction ranges generalizing last with
  | nil => exact Iff.rfl
  | cons r rest ih =>
    rw [mergeInto]
    split_ifs with hjoin
    · have hle := (List.pairwise_cons.mp h.begins).1 r (List.mem_cons_self ..)
      rw [ih h.join, covered_cons, covered_cons, covered_cons, ← or_assoc]
      apply or_congr_left
      rw [lt_max_iff]
      constructor
      · rintro ⟨hi, hi' | hi'⟩
        · exact Or.inl ⟨hi, hi'⟩
        · by_cases hir : r.1 ≤ i
          · exact Or.inr ⟨hir, hi'⟩
          · exact Or.inl ⟨hi, by omega⟩
      · rintro (⟨hi, hi'⟩ | ⟨hi, hi'⟩)
        · exact ⟨hi, Or.inl hi'⟩
        · exact ⟨by omega, Or.inr hi'⟩
    · rw [covered_cons, covered_cons, ih h.tail]

theorem covered_merge (h : Ordered ranges) : Covered (merge ranges) i ↔ Covered ranges i := by
  cases ranges with
  | nil => exact Iff.rfl
  | cons r rest => exact covered_mergeInto h

/-- Every joined range begins where one begins, and ends where one ends. -/
theorem ends_of_mem_mergeInto (hr : r ∈ mergeInto last ranges) :
    (∃ s ∈ last :: ranges, s.1 = r.1) ∧ ∃ s ∈ last :: ranges, s.2 = r.2 := by
  induction ranges generalizing last with
  | nil =>
    obtain rfl : r = last := List.mem_singleton.mp hr
    exact ⟨⟨r, hr, rfl⟩, r, hr, rfl⟩
  | cons s rest ih =>
    rw [mergeInto] at hr
    split_ifs at hr with hjoin
    · obtain ⟨⟨a, ha, hfirst⟩, b, hb, hsecond⟩ := ih hr
      constructor
      · rcases List.mem_cons.mp ha with rfl | ha
        · exact ⟨last, List.mem_cons_self .., hfirst⟩
        · exact ⟨a, List.mem_cons_of_mem _ (List.mem_cons_of_mem _ ha), hfirst⟩
      · rcases List.mem_cons.mp hb with rfl | hb
        · rcases max_choice last.2 s.2 with hmax | hmax
          · exact ⟨last, List.mem_cons_self .., hmax.symm.trans hsecond⟩
          · exact ⟨s, List.mem_cons_of_mem _ (List.mem_cons_self ..), hmax.symm.trans hsecond⟩
        · exact ⟨b, List.mem_cons_of_mem _ (List.mem_cons_of_mem _ hb), hsecond⟩
    · rcases List.mem_cons.mp hr with rfl | hr
      · exact ⟨⟨r, List.mem_cons_self .., rfl⟩, r, List.mem_cons_self .., rfl⟩
      · obtain ⟨⟨a, ha, hfirst⟩, b, hb, hsecond⟩ := ih hr
        exact ⟨⟨a, List.mem_cons_of_mem _ ha, hfirst⟩, b, List.mem_cons_of_mem _ hb, hsecond⟩

theorem ends_of_mem_merge (hr : r ∈ merge ranges) :
    (∃ s ∈ ranges, s.1 = r.1) ∧ ∃ s ∈ ranges, s.2 = r.2 := by
  cases ranges with
  | nil => exact absurd hr List.not_mem_nil
  | cons s rest => exact ends_of_mem_mergeInto hr

/-- No joined range begins in front of the first one. -/
theorem le_of_mem_mergeInto (h : Ordered (last :: ranges)) (hr : r ∈ mergeInto last ranges) :
    last.1 ≤ r.1 := by
  obtain ⟨⟨s, hs, hfirst⟩, -⟩ := ends_of_mem_mergeInto hr
  rw [← hfirst]
  rcases List.mem_cons.mp hs with rfl | hs
  · exact le_rfl
  · exact (List.pairwise_cons.mp h.begins).1 s hs

theorem apart_mergeInto (h : Ordered (last :: ranges)) : Apart (mergeInto last ranges) := by
  induction ranges generalizing last with
  | nil => exact ⟨List.pairwise_singleton .., h.nonempty⟩
  | cons r rest ih =>
    rw [mergeInto]
    split_ifs with hjoin
    · exact ih h.join
    · obtain ⟨hgaps, hnonempty⟩ := ih h.tail
      refine ⟨List.pairwise_cons.mpr ⟨fun s hs => ?_, hgaps⟩, List.forall_mem_cons.mpr
        ⟨h.nonempty last (List.mem_cons_self ..), hnonempty⟩⟩
      have hle := le_of_mem_mergeInto h.tail hs
      omega

/-- Joined ranges stand apart. -/
theorem apart_merge (h : Ordered ranges) : Apart (merge ranges) := by
  cases ranges with
  | nil => exact ⟨List.Pairwise.nil, fun r hr => absurd hr List.not_mem_nil⟩
  | cons r rest => exact apart_mergeInto h

end Ranges
