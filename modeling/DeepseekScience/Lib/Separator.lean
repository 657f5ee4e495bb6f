import Mathlib.Tactic

/-! Two parts joined by a doubled letter. The parts can be read back where neither holds the
doubled letter, except for one letter that moves across the separator. -/
namespace Separators

variable {α : Type*} {u : α} {s t h v : List α}

/-- The doubled letter does not occur. -/
def Free (u : α) (s : List α) : Prop := ¬ [u, u] <:+: s

/-- Two parts, joined. -/
def join (u : α) (s t : List α) : List α := s ++ u :: u :: t

theorem not_free_append (s t : List α) : ¬ Free u (s ++ u :: u :: t) := fun hfree =>
  hfree ⟨s, t, by rw [List.append_assoc, List.cons_append, List.cons_append, List.nil_append]⟩

/-- Where a join of two free parts has another reading, one letter has moved. -/
theorem join_eq_join_iff (hs : Free u s) (ht : Free u t) :
    join u s t = join u h v ↔
      (h = s ∧ t = v) ∨ (h = s ++ [u] ∧ t = u :: v) ∨ (s = h ++ [u] ∧ v = u :: t) := by
  unfold join
  constructor
  · intro heq
    rcases List.append_eq_append_iff.mp heq with ⟨w, rfl, hw⟩ | ⟨w, rfl, hw⟩
    · match w, hw with
      | [], hw =>
        rw [List.nil_append] at hw
        injection hw with _ hw
        injection hw with _ hw
        exact Or.inl ⟨List.append_nil s, hw⟩
      | [x], hw =>
        rw [List.singleton_append] at hw
        injection hw with hx hw
        injection hw with _ hw
        exact Or.inr (Or.inl ⟨by rw [hx], hw⟩)
      | x :: y :: w, hw =>
        rw [List.cons_append, List.cons_append] at hw
        injection hw with _ hw
        injection hw with _ hw
        exact absurd (hw ▸ ht) (not_free_append w v)
    · match w, hw with
      | [], hw =>
        rw [List.nil_append] at hw
        injection hw with _ hw
        injection hw with _ hw
        exact Or.inl ⟨(List.append_nil h).symm, hw.symm⟩
      | [x], hw =>
        rw [List.singleton_append] at hw
        injection hw with hx hw
        injection hw with _ hw
        exact Or.inr (Or.inr ⟨by rw [hx], hw⟩)
      | x :: y :: w, hw =>
        rw [List.cons_append, List.cons_append] at hw
        injection hw with hx hw
        injection hw with hy _
        subst hx hy
        exact absurd hs (not_free_append h w)
  · rintro (⟨rfl, rfl⟩ | ⟨rfl, rfl⟩ | ⟨rfl, rfl⟩)
    · rfl
    · rw [List.append_assoc, List.singleton_append]
    · rw [List.append_assoc, List.singleton_append]

end Separators
