import Mathlib.Tactic
import Mathlib.Data.List.Sort
import Mathlib.Algebra.Order.Field.Rat

/-! Rankings by value, in which equal values keep the order that they come in: a place is the
number of better ones, and more where others of the same value come first. -/
namespace Ranking

variable {α : Type*} [BEq α] [LawfulBEq α] {value : α → ℚ} {l : List α} {a b : α}

/-- The members with a positive value, the greatest first. -/
def ranked (value : α → ℚ) (l : List α) : List α :=
  (l.filter fun a => decide (0 < value a)).insertionSort fun a b => value b ≤ value a

/-- The number of members of a greater value. -/
def better (value : α → ℚ) (l : List α) (a : α) : ℕ := l.countP fun b => decide (value a < value b)

omit [BEq α] [LawfulBEq α] in
theorem ranked_perm : (ranked value l).Perm (l.filter fun a => decide (0 < value a)) :=
  List.perm_insertionSort _ _

omit [BEq α] [LawfulBEq α] in
theorem mem_ranked : a ∈ ranked value l ↔ a ∈ l ∧ 0 < value a := by
  rw [ranked_perm.mem_iff, List.mem_filter, decide_eq_true_eq]

omit [BEq α] [LawfulBEq α] in
theorem ranked_nodup (h : l.Nodup) : (ranked value l).Nodup := ranked_perm.nodup_iff.mpr (h.filter _)

omit [BEq α] [LawfulBEq α] in
theorem pairwise_descending (l : List α) :
    (l.insertionSort fun a b => value b ≤ value a).Pairwise fun a b => value b ≤ value a := by
  have htotal : Std.Total fun a b : α => value b ≤ value a := ⟨fun a b => le_total _ _⟩
  have htrans : IsTrans α fun a b => value b ≤ value a := ⟨fun _ _ _ hab hbc => hbc.trans hab⟩
  exact List.pairwise_insertionSort _ _

omit [BEq α] [LawfulBEq α] in
theorem ranked_pairwise : (ranked value l).Pairwise fun a b => value b ≤ value a :=
  pairwise_descending _

omit [BEq α] [LawfulBEq α] in
theorem better_ranked (h : 0 < value a) : better value (ranked value l) a = better value l a := by
  unfold better
  rw [ranked_perm.countP_eq, List.countP_filter]
  apply List.countP_congr
  intro b _
  simp only [Bool.and_eq_true, decide_eq_true_eq, and_iff_left_iff_imp]
  exact fun hlt => h.trans hlt

omit [BEq α] [LawfulBEq α] in
theorem better_perm {l' : List α} (h : l.Perm l') : better value l a = better value l' a :=
  h.countP_eq _

/-- What stands in front of a member: all better ones, and some of the same value. -/
theorem ranked_split (hnodup : l.Nodup) (hmem : a ∈ l) (hpos : 0 < value a) :
    ∃ before after, ranked value l = before ++ a :: after ∧
      (ranked value l).idxOf a = before.length ∧ (∀ b ∈ before, value a ≤ value b) ∧
      better value l a = before.countP fun b => decide (value a < value b) := by
  obtain ⟨before, after, hsplit⟩ := List.append_of_mem (mem_ranked.mpr ⟨hmem, hpos⟩)
  have hsorted := @ranked_pairwise α value l
  have hdistinct := @ranked_nodup α value l hnodup
  rw [hsplit] at hsorted hdistinct
  obtain ⟨-, hafter, hbefore⟩ := List.pairwise_append.mp hsorted
  have hnot : a ∉ before := fun h =>
    (List.nodup_append'.mp hdistinct).2.2 h (List.mem_cons_self ..)
  use before, after
  constructor
  · exact hsplit
  · constructor
    · rw [hsplit, List.idxOf_append_of_notMem hnot, List.idxOf_cons_self, Nat.add_zero]
    · constructor
      · intro b hb
        exact hbefore b hb a (List.mem_cons_self ..)
      · rw [← better_ranked hpos, hsplit]
        have hnone : (a :: after).countP (fun b => decide (value a < value b)) = 0 := by
          rw [List.countP_eq_zero]
          intro b hb
          simp only [decide_eq_true_eq, not_lt]
          rcases List.mem_cons.mp hb with rfl | hb
          · exact le_rfl
          · exact (List.pairwise_cons.mp hafter).1 b hb
        unfold better
        rw [List.countP_append, hnone, Nat.add_zero]

theorem better_le_idxOf (hnodup : l.Nodup) (hmem : a ∈ l) (hpos : 0 < value a) :
    better value l a ≤ (ranked value l).idxOf a := by
  obtain ⟨before, after, -, hplace, -, hbetter⟩ := ranked_split hnodup hmem hpos
  rw [hplace, hbetter]
  exact List.countP_le_length

omit [BEq α] [LawfulBEq α] in
theorem pair_sublist {before after : List α} (h : b ∈ after) :
    [a, b].Sublist (before ++ a :: after) := by
  apply List.Sublist.trans _ (List.sublist_append_right _ _)
  exact List.Sublist.cons_cons a (List.singleton_sublist.mpr h)

omit [BEq α] [LawfulBEq α] in
/-- Two members of a list without repetitions stand in one order only. -/
theorem not_pair_sublist (hnodup : l.Nodup) (hpair : [a, b].Sublist l) : ¬[b, a].Sublist l := by
  intro hback
  induction l with
  | nil => cases hpair
  | cons c l ih =>
    obtain ⟨hc, hrest⟩ := List.nodup_cons.mp hnodup
    cases hpair with
    | cons _ hpair =>
      cases hback with
      | cons _ hback => exact ih hrest hpair hback
      | cons_cons _ hback =>
        exact hc (hpair.subset (List.mem_cons_of_mem _ (List.mem_cons_self ..)))
    | cons_cons _ hpair =>
      cases hback with
      | cons _ hback => exact hc (hback.subset (List.mem_cons_of_mem _ (List.mem_cons_self ..)))
      | cons_cons _ hback => exact hc (hpair.subset (List.mem_cons_self ..))

omit [BEq α] [LawfulBEq α] in
theorem pair_or (ha : a ∈ l) (hb : b ∈ l) (hne : a ≠ b) :
    [a, b].Sublist l ∨ [b, a].Sublist l := by
  obtain ⟨before, after, rfl⟩ := List.append_of_mem ha
  rcases List.mem_append.mp hb with hb | hb
  · right
    obtain ⟨first, second, rfl⟩ := List.append_of_mem hb
    rw [List.append_assoc]
    apply pair_sublist
    exact List.mem_append_right _ (List.mem_cons_self ..)
  · left
    apply pair_sublist
    exact (List.mem_cons.mp hb).resolve_left hne.symm

omit [BEq α] [LawfulBEq α] in
/-- Members of the same value keep their order. -/
theorem ranked_pair (hpos : 0 < value a) (heq : value b = value a) (hpair : [a, b].Sublist l) :
    [a, b].Sublist (ranked value l) := by
  apply List.pair_sublist_insertionSort (r := fun a b => value b ≤ value a) heq.le
  have hsub := hpair.filter fun a => decide (0 < value a)
  simpa [hpos, heq] using hsub

/-- A place is the number of the better ones when nothing of the same value stands in front. -/
theorem idxOf_eq_better (hnodup : l.Nodup) (hmem : a ∈ l) (hpos : 0 < value a)
    (hfirst : ∀ b ∈ l, b ≠ a → value b = value a → [a, b].Sublist l) :
    (ranked value l).idxOf a = better value l a := by
  obtain ⟨before, after, hsplit, hplace, hge, hbetter⟩ := ranked_split hnodup hmem hpos
  rw [hplace, hbetter]
  symm
  rw [List.countP_eq_length]
  intro b hb
  simp only [decide_eq_true_eq]
  apply lt_of_le_of_ne (hge b hb)
  intro heq
  have hranked : b ∈ ranked value l := by
    rw [hsplit]
    exact List.mem_append_left _ hb
  have hdistinct := @ranked_nodup α value l hnodup
  have hne : b ≠ a := by
    rintro rfl
    rw [hsplit] at hdistinct
    exact (List.nodup_append'.mp hdistinct).2.2 hb (List.mem_cons_self ..)
  -- The one that comes first stays first.
  have hsorted := ranked_pair hpos heq.symm (hfirst b (mem_ranked.mp hranked).1 hne heq.symm)
  obtain ⟨first, second, rfl⟩ := List.append_of_mem hb
  apply not_pair_sublist hdistinct hsorted
  rw [hsplit, List.append_assoc]
  apply pair_sublist
  exact List.mem_append_right _ (List.mem_cons_self ..)

/-- Behind one of the same value a place is greater than the number of the better ones. -/
theorem better_lt_idxOf (hnodup : l.Nodup) (hpos : 0 < value a) (hpair : [b, a].Sublist l)
    (hne : b ≠ a) (heq : value b = value a) :
    better value l a < (ranked value l).idxOf a := by
  have hmem : a ∈ l := hpair.subset (List.mem_cons_of_mem _ (List.mem_cons_self ..))
  obtain ⟨before, after, hsplit, hplace, -, hbetter⟩ := ranked_split hnodup hmem hpos
  have hsorted := ranked_pair (heq ▸ hpos) heq.symm hpair
  have hdistinct := @ranked_nodup α value l hnodup
  have hbefore : b ∈ before := by
    have hb : b ∈ before ++ a :: after := hsplit ▸ hsorted.subset (List.mem_cons_self ..)
    rcases List.mem_append.mp hb with hb | hb
    · exact hb
    · rcases List.mem_cons.mp hb with hb | hb
      · exact absurd hb hne
      · exact absurd (hsplit ▸ pair_sublist hb) (not_pair_sublist hdistinct hsorted)
  rw [hplace, hbetter]
  apply lt_of_le_of_ne List.countP_le_length
  rw [ne_eq, List.countP_eq_length]
  intro hall
  have hlt := hall b hbefore
  rw [decide_eq_true_eq, heq] at hlt
  exact absurd hlt (lt_irrefl _)

end Ranking
