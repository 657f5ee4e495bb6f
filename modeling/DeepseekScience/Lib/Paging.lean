import Mathlib.Tactic

/-! A listing that comes in pages: every page names the cursor of the next one. A cursor that comes
back is refused, and so is a listing with too many pages. -/
namespace Paging

variable {κ π β σ ε : Type*}

/-- How pages are fetched and read: the page behind a cursor, what it adds to the pages in front of
it, and the cursor that it names. -/
structure Reader (κ π β σ ε : Type*) where
  fetch : Option κ → σ → Except ε π × σ
  accept : β → π → Except ε β
  next : π → Except ε (Option κ)

namespace Reader

variable (R : Reader κ π β σ ε)

/-- The pages from a cursor on, with so many pages to go and the cursors that were named so far. -/
def follow [DecidableEq κ] (cycle overflow : ε) : ℕ → List κ → Option κ → β → σ → Except ε β × σ
  | 0, _, _, _, s => (.error overflow, s)
  | n + 1, seen, cursor, acc, s =>
    match R.fetch cursor s with
    | (.error e, s) => (.error e, s)
    | (.ok page, s) =>
      match R.accept acc page with
      | .error e => (.error e, s)
      | .ok acc =>
        match R.next page with
        | .error e => (.error e, s)
        | .ok none => (.ok acc, s)
        | .ok (some k) =>
          if k ∈ seen then (.error cycle, s) else follow cycle overflow n (k :: seen) (some k) acc s

/-- What all pages add, one behind the other. -/
def acceptAll (acc : β) : List π → Except ε β
  | [] => .ok acc
  | page :: pages =>
    match R.accept acc page with
    | .error e => .error e
    | .ok acc => acceptAll acc pages

/-- The pages from a cursor to the end of the listing, and the cursors that they name. -/
inductive Chain : Option κ → σ → List π → List κ → σ → Prop
  | last {cursor : Option κ} {page : π} {s s' : σ} (hfetch : R.fetch cursor s = (.ok page, s'))
    (hnext : R.next page = .ok none) : Chain cursor s [page] [] s'
  | more {cursor : Option κ} {page : π} {k : κ} {pages : List π} {cursors : List κ} {s s' t : σ}
    (hfetch : R.fetch cursor s = (.ok page, s')) (hnext : R.next page = .ok (some k))
    (htail : Chain (some k) s' pages cursors t) : Chain cursor s (page :: pages) (k :: cursors) t

variable {R} [DecidableEq κ] {cycle overflow : ε} {n : ℕ} {seen : List κ} {cursor : Option κ} {acc acc' : β} {s s' : σ}

/-- Success means that the listing was read to its end, no cursor came back, and every page was
admitted behind those in front of it. -/
theorem follow_eq_ok : follow R cycle overflow n seen cursor acc s = (.ok acc', s') ↔
    ∃ pages cursors, R.Chain cursor s pages cursors s' ∧ pages.length ≤ n ∧
      cursors.Nodup ∧ (∀ k ∈ cursors, k ∉ seen) ∧ R.acceptAll acc pages = .ok acc' := by
  induction n generalizing seen cursor acc s with
  | zero =>
    simp only [follow, Prod.mk.injEq, reduceCtorEq, false_and, false_iff]
    rintro ⟨pages, cursors, hchain, hlength, -⟩
    cases hchain <;> simp at hlength
  | succ n ih =>
    constructor
    · intro h
      rw [follow] at h
      split at h
      · simp at h
      rename_i page t hfetch
      split at h
      · simp at h
      rename_i acc₁ haccept
      split at h
      · simp at h
      · rename_i hnext
        obtain ⟨rfl, rfl⟩ : acc₁ = acc' ∧ t = s' := by simpa using h
        refine ⟨[page], [], .last hfetch hnext, by simp, List.nodup_nil, by simp, ?_⟩
        simp [acceptAll, haccept]
      · rename_i k hnext
        split at h
        · simp at h
        rename_i hfresh
        obtain ⟨pages, cursors, hchain, hlength, hnodup, hseen, hfold⟩ := ih.mp h
        refine ⟨page :: pages, k :: cursors, .more hfetch hnext hchain, by simpa using hlength,
          ?_, ?_, ?_⟩
        · exact List.nodup_cons.mpr ⟨fun hmem => hseen k hmem List.mem_cons_self, hnodup⟩
        · simp only [List.forall_mem_cons]
          exact ⟨hfresh, fun k' hk' hmem => hseen k' hk' (List.mem_cons_of_mem _ hmem)⟩
        · simpa [acceptAll, haccept] using hfold
    · rintro ⟨pages, cursors, hchain, hlength, hnodup, hseen, hfold⟩
      rw [follow]
      cases hchain with
      | @last _ page _ _ hfetch hnext =>
        cases haccept : R.accept acc page with
        | error e => simp [acceptAll, haccept] at hfold
        | ok acc₁ =>
          obtain rfl : acc₁ = acc' := by simpa [acceptAll, haccept] using hfold
          simp [hfetch, haccept, hnext]
      | @more _ page k pages cursors _ t _ hfetch hnext htail =>
        obtain ⟨hfresh, hnodup⟩ := List.nodup_cons.mp hnodup
        obtain ⟨hk, hseen⟩ := List.forall_mem_cons.mp hseen
        cases haccept : R.accept acc page with
        | error e => simp [acceptAll, haccept] at hfold
        | ok acc₁ =>
          simp only [hfetch, haccept, hnext, if_neg hk]
          refine ih.mpr ⟨pages, cursors, htail, by simpa using hlength, hnodup, ?_, ?_⟩
          · intro k' hk' hmem
            obtain rfl | hmem := List.mem_cons.mp hmem
            · exact hfresh hk'
            · exact hseen k' hk' hmem
          · simpa [acceptAll, haccept] using hfold

/-- What every fetch keeps holds behind the listing. -/
theorem follow_invariant {P : σ → Prop} (hfetch : ∀ cursor s, P s → P (R.fetch cursor s).2)
    (h : P s) : P (follow R cycle overflow n seen cursor acc s).2 := by
  induction n generalizing seen cursor acc s with
  | zero => exact h
  | succ n ih =>
    have hnext := hfetch cursor s h
    rw [follow]
    split <;> rename_i heq <;> rw [heq] at hnext
    · exact hnext
    split
    · exact hnext
    split
    · exact hnext
    · exact hnext
    · split
      · exact hnext
      · exact ih hnext

/-- Whatever comes of it: so many pages are asked for at most, and behind the first one each by a
cursor of its own. -/
theorem follow_asked {α : Type*} (log : σ → List α) (entry : Option κ → α)
    (hlog : ∀ cursor s, log (R.fetch cursor s).2 = log s ++ [entry cursor]) (n : ℕ) (seen : List κ)
    (cursor : Option κ) (acc : β) (s : σ) :
    ∃ asked, log (follow R cycle overflow n seen cursor acc s).2 = log s ++ asked.map entry ∧
      asked.length ≤ n ∧ (asked = [] ∨ ∃ cursors : List κ, asked = cursor :: cursors.map some ∧
        cursors.Nodup ∧ ∀ k ∈ cursors, k ∉ seen) := by
  induction n generalizing seen cursor acc s with
  | zero => exact ⟨[], by simp [follow], by simp, Or.inl rfl⟩
  | succ n ih =>
    have hfirst := hlog cursor s
    have hstop : ∀ t, log t = log s ++ [entry cursor] → ∃ asked, log t = log s ++ asked.map entry ∧
        asked.length ≤ n + 1 ∧ (asked = [] ∨ ∃ cursors : List κ, asked = cursor :: cursors.map some ∧
          cursors.Nodup ∧ ∀ k ∈ cursors, k ∉ seen) :=
      fun t h => ⟨[cursor], h, by simp, Or.inr ⟨[], by simp⟩⟩
    rw [follow]
    split <;> rename_i heq <;> rw [heq] at hfirst
    · exact hstop _ hfirst
    split
    · exact hstop _ hfirst
    split
    · exact hstop _ hfirst
    · exact hstop _ hfirst
    rename_i k hnext
    split
    · exact hstop _ hfirst
    rename_i hfresh
    obtain ⟨asked, hasked, hlength, hcases⟩ := ih (k :: seen) (some k) _ _
    dsimp only at hfirst
    refine ⟨cursor :: asked, hasked.trans (by simp [hfirst]), by simpa using hlength, Or.inr ?_⟩
    obtain rfl | ⟨cursors, rfl, hnodup, hseen⟩ := hcases
    · exact ⟨[], by simp⟩
    · refine ⟨k :: cursors, by simp, ?_, ?_⟩
      · exact List.nodup_cons.mpr ⟨fun hmem => hseen k hmem List.mem_cons_self, hnodup⟩
      · simp only [List.forall_mem_cons]
        exact ⟨hfresh, fun k' hk' hmem => hseen k' hk' (List.mem_cons_of_mem _ hmem)⟩

end Reader

end Paging
