import Mathlib.Tactic

/-! Blocks that a doubled letter closes, read from a buffer that grows: what is read does not
depend on how the input was cut. -/
namespace Blocks

variable {α : Type*} [DecidableEq α]

/-- The part up to the first doubled letter, and what is behind it. -/
def takeBlock (u : α) : List α → Option (List α × List α)
  | [] => none
  | [_] => none
  | a :: b :: rest =>
    if a = u ∧ b = u then some ([], rest)
    else (takeBlock u (b :: rest)).map fun (block, rest) => (a :: block, rest)

variable {u : α} {s t block rest : List α}

theorem takeBlock_eq_some (h : takeBlock u s = some (block, rest)) :
    s = block ++ u :: u :: rest := by
  induction s generalizing block with
  | nil => cases h
  | cons a s ih =>
    cases s with
    | nil => cases h
    | cons b s =>
      rw [takeBlock] at h
      split_ifs at h with hab
      · obtain ⟨rfl, rfl⟩ := hab
        cases h
        rfl
      · obtain ⟨⟨block', rest'⟩, hnext, heq⟩ := Option.map_eq_some_iff.mp h
        cases heq
        rw [ih hnext]
        rfl

theorem takeBlock_length (h : takeBlock u s = some (block, rest)) : rest.length < s.length := by
  rw [takeBlock_eq_some h]
  simp only [List.length_append, List.length_cons]
  omega

/-- A doubled letter that is there is found again when more input comes. -/
theorem takeBlock_append (h : takeBlock u s = some (block, rest)) (t : List α) :
    takeBlock u (s ++ t) = some (block, rest ++ t) := by
  induction s generalizing block with
  | nil => cases h
  | cons a s ih =>
    cases s with
    | nil => cases h
    | cons b s =>
      rw [takeBlock] at h
      rw [List.cons_append, List.cons_append, takeBlock]
      split_ifs at h with hab
      · cases h
        rw [if_pos hab]
      · obtain ⟨⟨block', rest'⟩, hnext, heq⟩ := Option.map_eq_some_iff.mp h
        cases heq
        rw [if_neg hab, ← List.cons_append, ih hnext]
        rfl

theorem takeBlock_eq_none_of_append (h : takeBlock u (s ++ t) = none) : takeBlock u s = none := by
  cases hs : takeBlock u s with
  | none => rfl
  | some read =>
    rw [takeBlock_append hs t] at h
    cases h

/-- A block without the letter is closed by the first two letters behind it. -/
theorem takeBlock_block (h : u ∉ block) (rest : List α) :
    takeBlock u (block ++ u :: u :: rest) = some (block, rest) := by
  induction block with
  | nil => rw [List.nil_append, takeBlock, if_pos ⟨rfl, rfl⟩]
  | cons a block ih =>
    rw [List.mem_cons, not_or] at h
    obtain ⟨hne, htail⟩ := h
    rw [List.cons_append]
    cases hnext : block ++ u :: u :: rest with
    | nil => simp at hnext
    | cons b next =>
      rw [takeBlock, if_neg fun hab => hne hab.1.symm, ← hnext, ih htail]
      rfl

/-- A front of such a block that lacks its end is not closed. -/
theorem takeBlock_front {front back : List α} (h : u ∉ block)
    (hcut : front ++ back = block ++ [u, u]) (hback : back ≠ []) : takeBlock u front = none := by
  cases hfront : takeBlock u front with
  | none => rfl
  | some read =>
    obtain ⟨early, rest⟩ := read
    have hfound := takeBlock_append hfront back
    rw [hcut, takeBlock_block h [], Option.some.injEq, Prod.mk.injEq] at hfound
    exact absurd (List.append_eq_nil_iff.mp hfound.2.symm).2 hback

/-- All blocks that are closed, and what is left behind them. -/
def blocks (u : α) (s : List α) : List (List α) × List α :=
  match _ : takeBlock u s with
  | some (block, rest) => (block :: (blocks u rest).1, (blocks u rest).2)
  | none => ([], s)
  termination_by s.length
  decreasing_by all_goals exact takeBlock_length ‹_›

theorem blocks_of_some (h : takeBlock u s = some (block, rest)) :
    blocks u s = (block :: (blocks u rest).1, (blocks u rest).2) := by
  rw [blocks]
  split
  · rename_i block' rest' h'
    rw [h, Option.some.injEq, Prod.mk.injEq] at h'
    obtain ⟨rfl, rfl⟩ := h'
    rfl
  · rename_i h'
    rw [h] at h'
    cases h'

theorem blocks_of_none (h : takeBlock u s = none) : blocks u s = ([], s) := by
  rw [blocks]
  split
  · rename_i h'
    rw [h] at h'
    cases h'
  · rfl

theorem takeBlock_rest (u : α) (s : List α) : takeBlock u (blocks u s).2 = none := by
  fun_induction blocks u s with
  | case1 s block rest h ih => exact ih
  | case2 s h => exact h

/-- Input that comes in two parts is read like the whole of it. -/
theorem blocks_append (u : α) (s t : List α) : blocks u (s ++ t) =
    ((blocks u s).1 ++ (blocks u ((blocks u s).2 ++ t)).1,
      (blocks u ((blocks u s).2 ++ t)).2) := by
  fun_induction blocks u s with
  | case1 s block rest h ih => simp [blocks_of_some (takeBlock_append h t), ih]
  | case2 s h => simp

theorem blocks_block (h : u ∉ block) (rest : List α) :
    blocks u (block ++ u :: u :: rest) = (block :: (blocks u rest).1, (blocks u rest).2) :=
  blocks_of_some (takeBlock_block h rest)

end Blocks
