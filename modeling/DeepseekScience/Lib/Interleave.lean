import DeepseekScience.Lib.Transaction

/-! Runs over interleavings. Where steps with different keys commute, a run depends only on
the entries of each key: every interleaving of the same lists is accepted alike and ends in the
same state. -/
namespace Interleavings

open Transactions

variable {S ε α κ : Type}

/-- The same entries for every key, in the same order. -/
def SameByKey [DecidableEq κ] (key : α → κ) (xs ys : List α) : Prop :=
  ∀ k, (xs.filter fun a => key a = k) = ys.filter fun a => key a = k

/-- From a state with the invariant, which every accepted step keeps, two accepted steps with
different keys may be taken in the other order. -/
structure Commutes (key : α → κ) (inv : S → Prop) (step : S → α → Except ε S) : Prop where
  keeps : ∀ s a t, inv s → step s a = .ok t → inv t
  swap : ∀ s m t a b, inv s → key a ≠ key b → step s a = .ok m → step m b = .ok t →
    ∃ m', step s b = .ok m' ∧ step m' a = .ok t

theorem foldlM_cons_ok {step : S → α → Except ε S} {s t : S} {a : α} {xs : List α} :
    (a :: xs).foldlM step s = .ok t ↔ ∃ m, step s a = .ok m ∧ xs.foldlM step m = .ok t := by
  rw [List.foldlM_cons, bind_eq_ok]

theorem foldlM_append_ok {step : S → α → Except ε S} {s t : S} {xs ys : List α} :
    (xs ++ ys).foldlM step s = .ok t ↔
      ∃ m, xs.foldlM step s = .ok m ∧ ys.foldlM step m = .ok t := by
  rw [List.foldlM_append, bind_eq_ok]

theorem foldlM_nil_ok {step : S → α → Except ε S} {s t : S} :
    ([] : List α).foldlM step s = .ok t ↔ s = t := by
  rw [List.foldlM_nil]
  exact pure_eq_ok

variable {key : α → κ} {inv : S → Prop} {step : S → α → Except ε S}

/-- An entry moves in front of entries with other keys. -/
theorem Commutes.move_front (hcomm : Commutes key inv step) {front back : List α} {a : α} {s t : S}
    (hs : inv s) (hfront : ∀ b ∈ front, key b ≠ key a) (h : (front ++ a :: back).foldlM step s = .ok t) :
    (a :: (front ++ back)).foldlM step s = .ok t := by
  induction front generalizing s with
  | nil => exact h
  | cons b front ih =>
    rw [List.cons_append, foldlM_cons_ok] at h
    obtain ⟨m, hb, hrest⟩ := h
    have hmoved := ih (hcomm.keeps s b m hs hb)
      (fun c hc => hfront c (List.mem_cons_of_mem _ hc)) hrest
    obtain ⟨n, ha, hrest⟩ := foldlM_cons_ok.mp hmoved
    obtain ⟨m', ha', hb'⟩ := hcomm.swap s m n b a hs (hfront b List.mem_cons_self) hb ha
    exact foldlM_cons_ok.mpr ⟨m', ha', foldlM_cons_ok.mpr ⟨n, hb', hrest⟩⟩

variable [DecidableEq κ]

/-- The first entry of its key, with the entries of other keys in front of it. -/
theorem exists_split_of_sameByKey {a : α} {xs ys : List α} (h : SameByKey key (a :: xs) ys) :
    ∃ front back, ys = front ++ a :: back ∧ (∀ b ∈ front, key b ≠ key a) ∧
      SameByKey key xs (front ++ back) := by
  have ha := h (key a)
  rw [List.filter_cons_of_pos (by simp)] at ha
  obtain ⟨front, back, rfl, hfront, -, hback⟩ := List.filter_eq_cons_iff.mp ha.symm
  have hother : ∀ b ∈ front, key b ≠ key a := fun b hb => by simpa using hfront b hb
  refine ⟨front, back, rfl, hother, fun k => ?_⟩
  have hk := h k
  by_cases hak : key a = k
  · subst hak
    have hnil : front.filter (fun b => key b = key a) = [] := by
      rw [List.filter_eq_nil_iff]
      intro b hb
      simpa using hother b hb
    rw [List.filter_append, hnil, List.nil_append]
    rw [List.filter_cons_of_pos (by simp), List.filter_append, hnil, List.nil_append,
      List.filter_cons_of_pos (by simp)] at hk
    exact (List.cons.inj hk).2
  · rw [List.filter_cons_of_neg (by simpa using hak), List.filter_append,
      List.filter_cons_of_neg (by simpa using hak)] at hk
    rw [hk, List.filter_append]

/-- A run depends on the entries of each key only. -/
theorem Commutes.foldlM_ok (hcomm : Commutes key inv step) {xs ys : List α}
    (h : SameByKey key xs ys) {s t : S} (hs : inv s) (hys : ys.foldlM step s = .ok t) :
    xs.foldlM step s = .ok t := by
  induction xs generalizing ys s with
  | nil =>
    have hnil : ys = [] := by
      rw [List.eq_nil_iff_forall_not_mem]
      intro a ha
      have hk := h (key a)
      rw [List.filter_nil] at hk
      exact List.not_mem_nil (hk ▸ List.mem_filter.mpr ⟨ha, by simp⟩)
    rw [hnil] at hys
    exact hys
  | cons a xs ih =>
    obtain ⟨front, back, rfl, hfront, hrest⟩ := exists_split_of_sameByKey h
    obtain ⟨m, ha, hmoved⟩ := foldlM_cons_ok.mp (hcomm.move_front hs hfront hys)
    exact foldlM_cons_ok.mpr ⟨m, ha, ih hrest (hcomm.keeps s a m hs ha) hmoved⟩

theorem SameByKey.symm {xs ys : List α} (h : SameByKey key xs ys) : SameByKey key ys xs :=
  fun k => (h k).symm

theorem Commutes.foldlM_ok_iff (hcomm : Commutes key inv step) {xs ys : List α}
    (h : SameByKey key xs ys) {s t : S} (hs : inv s) :
    xs.foldlM step s = .ok t ↔ ys.foldlM step s = .ok t :=
  ⟨hcomm.foldlM_ok h.symm hs, hcomm.foldlM_ok h hs⟩

/-- What every accepted step keeps, with the entries that were taken so far, holds at the end of
an accepted run. -/
theorem foldlM_invariant {holds : List α → S → Prop} {s t : S} {xs : List α} (hinit : holds [] s)
    (hstep : ∀ seen m a n, holds seen m → step m a = .ok n → holds (seen ++ [a]) n)
    (h : xs.foldlM step s = .ok t) : holds xs t := by
  induction xs using List.reverseRecOn generalizing t with
  | nil => exact (foldlM_nil_ok.mp h) ▸ hinit
  | append_singleton xs a ih =>
    obtain ⟨m, hxs, ha⟩ := foldlM_append_ok.mp h
    obtain ⟨n, ha, hn⟩ := foldlM_cons_ok.mp ha
    rw [← foldlM_nil_ok.mp hn]
    exact hstep xs m a n (ih hxs) ha

end Interleavings
