import DeepseekScience.TextLines
import Mathlib.Data.List.Sort

/-! Windows of lines (`builtin/files.rs`, `read_file`): they tile a file as long as the end of a
window can be computed in 64 bits. -/
namespace DeepseekScience.Tools

/-- `slice::join` with a line feed. -/
def joinLines (lines : List Text) : Text := List.intercalate "\n".toList lines

/-- `none` is a panic: a sum over 64 bits overflows, and in a build without overflow checks the
slice would end in front of its start. -/
def applyOffsetLimit (content : Text) (offset limit : Option ℕ) : Option Text :=
  if offset = none ∧ limit = none then some content
  else
    let offset := offset.getD 1 - 1
    let lines := textLines content
    let start := min offset lines.length
    let take := limit.getD (lines.length - start)
    if start + take < 2 ^ 64 then
      let stop := min (start + take) lines.length
      some (joinLines ((lines.take stop).drop start))
    else none

/-- The lines from a 1-based offset on, so many as the limit says. -/
def windowLines (content : Text) (offset limit : ℕ) : List Text :=
  let lines := textLines content
  (lines.take (min (max offset 1 - 1 + limit) lines.length)).drop (max offset 1 - 1)

/-- The window of a call: without offset and limit the file as it is. -/
def readWindow (content : Text) (offset limit : Option ℕ) : Text :=
  if offset = none ∧ limit = none then content
  else joinLines (windowLines content (offset.getD 1) (limit.getD (textLines content).length))

/-- The start of the window and the number of lines that are asked for add up in 64 bits. -/
def WindowFits (content : Text) (offset limit : Option ℕ) : Prop :=
  (offset = none ∧ limit = none) ∨
    let start := min (max (offset.getD 1) 1 - 1) (textLines content).length
    start + limit.getD ((textLines content).length - start) < 2 ^ 64

theorem max_one_sub_one (n : ℕ) : max n 1 - 1 = n - 1 := by omega

theorem windowLines_eq (content : Text) (offset limit : ℕ) :
    windowLines content offset limit =
      ((textLines content).drop (offset - 1)).take limit := by
  unfold windowLines
  rw [max_one_sub_one, List.drop_take]
  apply List.take_eq_take_iff.mpr
  simp only [List.length_drop]
  omega

/-- The lines that the source cuts out are those of the window. -/
theorem sliced_eq (content : Text) (offset : ℕ) (limit : Option ℕ) :
    let lines := textLines content
    let start := min (offset - 1) lines.length
    let stop := min (start + limit.getD (lines.length - start)) lines.length
    (lines.take stop).drop start = windowLines content offset (limit.getD lines.length) := by
  intro lines start stop
  rw [windowLines_eq]
  have hdrop : lines.drop start = lines.drop (offset - 1) := by
    by_cases hle : offset - 1 ≤ lines.length
    · rw [show start = offset - 1 from min_eq_left hle]
    · rw [show start = lines.length from min_eq_right (by omega), List.drop_length,
        List.drop_of_length_le (by omega)]
  rw [List.drop_take, hdrop]
  apply List.take_eq_take_iff.mpr
  simp only [List.length_drop]
  cases limit with
  | none =>
    simp only [Option.getD_none, stop, start]
    omega
  | some limit =>
    simp only [Option.getD_some, stop, start]
    have hlines : (textLines content).length = lines.length := rfl
    omega

theorem applyOffsetLimit_eq (content : Text) (offset limit : Option ℕ)
    (h : WindowFits content offset limit) :
    applyOffsetLimit content offset limit = some (readWindow content offset limit) := by
  unfold applyOffsetLimit readWindow
  split_ifs with hnone
  · rfl
  · have hfits := h.resolve_left hnone
    rw [max_one_sub_one] at hfits
    dsimp only
    rw [if_pos hfits, sliced_eq]

theorem applyOffsetLimit_eq_none (content : Text) (offset limit : Option ℕ)
    (h : ¬WindowFits content offset limit) : applyOffsetLimit content offset limit = none := by
  unfold WindowFits at h
  rw [not_or, max_one_sub_one] at h
  unfold applyOffsetLimit
  rw [if_neg h.1]
  exact if_neg h.2

/-- The first windows are the first lines, by induction on their number. -/
theorem windows_take (content : Text) (k count : ℕ) :
    ((List.range count).flatMap fun i => windowLines content (1 + i * k) k) =
      (textLines content).take (count * k) := by
  induction count with
  | zero => simp
  | succ count ih =>
    rw [List.range_succ, List.flatMap_append, ih, List.flatMap_singleton, windowLines_eq,
      Nat.add_sub_cancel_left, Nat.succ_mul, List.take_add]

/-- A window is read exactly when its end can be computed, and then holds its lines; and windows
of one size behind one another are read exactly when all of their ends can be computed, and hold
together every line once. -/
theorem applyOffsetLimit_iff (content : Text) :
    (∀ offset limit, applyOffsetLimit content offset limit =
        some (readWindow content offset limit) ↔ WindowFits content offset limit) ∧
      ∀ k count, 0 < k → (textLines content).length ≤ count * k →
        ((∃ windows : List (List Text), windows.length = count ∧
            (∀ i < count, applyOffsetLimit content (some (1 + i * k)) (some k) =
              (windows[i]?).map joinLines) ∧
            windows.flatten = textLines content) ↔
          ∀ i < count, WindowFits content (some (1 + i * k)) (some k)) := by
  have hwindow : ∀ offset limit, applyOffsetLimit content offset limit =
      some (readWindow content offset limit) ↔ WindowFits content offset limit := by
    intro offset limit
    constructor
    · intro h
      by_contra hnot
      rw [applyOffsetLimit_eq_none content offset limit hnot] at h
      cases h
    · exact applyOffsetLimit_eq content offset limit
  constructor
  · exact hwindow
  · intro k count _ hcount
    constructor
    · rintro ⟨windows, hlength, hread, -⟩ i hi
      by_contra hnot
      have hnone := hread i hi
      rw [applyOffsetLimit_eq_none content _ _ hnot, List.getElem?_eq_getElem (by omega)] at hnone
      cases hnone
    · intro hfits
      use (List.range count).map fun i => windowLines content (1 + i * k) k
      constructor
      · simp
      · constructor
        · intro i hi
          rw [(hwindow _ _).mpr (hfits i hi)]
          simp [readWindow, hi]
        · rw [← List.flatMap_def, windows_take, List.take_of_length_le hcount]

theorem threeLines_windows : applyOffsetLimit "a\nb\nc".toList (some 2) (some 5) =
    some (readWindow "a\nb\nc".toList (some 2) (some 5)) ∧
    ∃ windows : List (List Text), windows.length = 2 ∧
      (∀ i < 2, applyOffsetLimit "a\nb\nc".toList (some (1 + i * 2)) (some 2) =
        (windows[i]?).map joinLines) ∧
      windows.flatten = textLines "a\nb\nc".toList := by
  constructor
  · apply (applyOffsetLimit_iff _).1 _ _ |>.mpr
    exact Or.inr (by decide +kernel)
  · apply (applyOffsetLimit_iff _).2 2 2 (by decide) (by decide +kernel) |>.mpr
    intro i hi
    right
    have hlines : (textLines "a\nb\nc".toList).length = 3 := by decide +kernel
    simp only [Option.getD_some, hlines]
    omega

/-- A limit that says "to the end" does not survive an offset. -/
theorem largestLimit_panics :
    applyOffsetLimit "a\nb".toList (some 2) (some (2 ^ 64 - 1)) = none := by decide +kernel

end DeepseekScience.Tools
