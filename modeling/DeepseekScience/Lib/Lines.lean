import Mathlib.Tactic

/-! Lines of a sequence that arrives in pieces. A line ends with its separator; what is left
behind the last separator is a line of its own, unless it is empty. -/
namespace Lines

variable {α : Type*} [DecidableEq α] {sep : α}

/-- The first terminated line, and what follows it. -/
def takeLine (sep : α) : List α → Option (List α × List α)
  | [] => none
  | a :: as =>
    if a = sep then some ([a], as)
    else (takeLine sep as).map fun (line, rest) => (a :: line, rest)

/-- A terminated line is a piece without the separator, and the separator. -/
theorem takeLine_eq_some {as line rest : List α} (h : takeLine sep as = some (line, rest)) :
    ∃ piece, sep ∉ piece ∧ line = piece ++ [sep] ∧ as = piece ++ sep :: rest := by
  induction as generalizing line with
  | nil => cases h
  | cons a as ih =>
    unfold takeLine at h
    split_ifs at h with ha
    · obtain ⟨rfl, rfl⟩ := Prod.mk.inj (Option.some.inj h)
      exact ⟨[], List.not_mem_nil, by rw [ha, List.nil_append], by rw [ha, List.nil_append]⟩
    · obtain ⟨⟨line', rest'⟩, hline, heq⟩ := Option.map_eq_some_iff.mp h
      obtain ⟨rfl, rfl⟩ := Prod.mk.inj heq
      obtain ⟨piece, hpiece, rfl, rfl⟩ := ih hline
      refine ⟨a :: piece, ?_, rfl, rfl⟩
      rw [List.mem_cons, not_or]
      exact ⟨Ne.symm ha, hpiece⟩

theorem takeLine_append (piece rest : List α) (h : sep ∉ piece) :
    takeLine sep (piece ++ sep :: rest) = some (piece ++ [sep], rest) := by
  induction piece with
  | nil => simp [takeLine]
  | cons a piece ih =>
    rw [List.mem_cons, not_or] at h
    simp [takeLine, Ne.symm h.1, ih h.2]

theorem takeLine_eq_none {as : List α} : takeLine sep as = none ↔ sep ∉ as := by
  induction as with
  | nil => simp [takeLine]
  | cons a as ih =>
    unfold takeLine
    split_ifs with ha
    · simp [ha]
    · rw [Option.map_eq_none_iff, ih, List.mem_cons, not_or]
      exact ⟨fun h => ⟨Ne.symm ha, h⟩, fun h => h.2⟩

theorem takeLine_length {as line rest : List α} (h : takeLine sep as = some (line, rest)) :
    rest.length < as.length := by
  obtain ⟨piece, -, -, rfl⟩ := takeLine_eq_some h
  simp only [List.length_append, List.length_cons]
  omega

/-- The lines of a whole sequence. -/
def lines (sep : α) : List α → List (List α)
  | [] => []
  | a :: as =>
    if a = sep then [a] :: lines sep as
    else
      match lines sep as with
      | [] => [[a]]
      | line :: rest => (a :: line) :: rest

theorem lines_of_notMem {as : List α} (h : sep ∉ as) (hne : as ≠ []) : lines sep as = [as] := by
  induction as with
  | nil => exact absurd rfl hne
  | cons a as ih =>
    rw [List.mem_cons, not_or] at h
    rw [lines, if_neg (Ne.symm h.1)]
    cases as with
    | nil => rfl
    | cons b bs => rw [ih h.2 (List.cons_ne_nil b bs)]

theorem lines_append (piece rest : List α) (h : sep ∉ piece) :
    lines sep (piece ++ sep :: rest) = (piece ++ [sep]) :: lines sep rest := by
  induction piece with
  | nil => rw [List.nil_append, lines, if_pos rfl, List.nil_append]
  | cons a piece ih =>
    rw [List.mem_cons, not_or] at h
    rw [List.cons_append, lines, if_neg (Ne.symm h.1), ih h.2]
    rfl

theorem flatten_lines (as : List α) : (lines sep as).flatten = as := by
  induction as with
  | nil => rfl
  | cons a as ih =>
    unfold lines
    split_ifs with ha
    · rw [List.flatten_cons, ih]
      rfl
    · cases hlines : lines sep as with
      | nil =>
        rw [hlines] at ih
        rw [← ih]
        rfl
      | cons line rest =>
        rw [hlines] at ih
        rw [← ih]
        rfl

/-- Every line but the last ends with its separator. -/
theorem dropLast_terminated (as : List α) :
    ∀ line ∈ (lines sep as).dropLast, ∃ piece, line = piece ++ [sep] := by
  induction as with
  | nil => exact fun line hline => absurd hline List.not_mem_nil
  | cons a as ih =>
    unfold lines
    split_ifs with ha
    · cases hlines : lines sep as with
      | nil => exact fun line hline => absurd hline List.not_mem_nil
      | cons first rest =>
        rw [hlines] at ih
        intro line hline
        rw [List.dropLast_cons_of_ne_nil (List.cons_ne_nil first rest), List.mem_cons] at hline
        rcases hline with rfl | hline
        · exact ⟨[], by rw [ha, List.nil_append]⟩
        · exact ih line hline
    · cases hlines : lines sep as with
      | nil => exact fun line hline => absurd hline List.not_mem_nil
      | cons first rest =>
        rw [hlines] at ih
        cases rest with
        | nil => exact fun line hline => absurd hline List.not_mem_nil
        | cons second rest =>
          intro line hline
          rcases List.mem_cons.mp hline with rfl | hline
          · obtain ⟨piece, rfl⟩ := ih first (List.mem_cons_self ..)
            exact ⟨a :: piece, rfl⟩
          · exact ih line (List.mem_cons_of_mem _ hline)

/-- Lines in front of another one end with their separators. -/
theorem take_terminated {as : List α} {n : ℕ} (h : n < (lines sep as).length) :
    ∀ line ∈ (lines sep as).take n, ∃ piece, line = piece ++ [sep] := by
  intro line hline
  apply dropLast_terminated as
  rw [List.dropLast_eq_take]
  exact (List.take_prefix_take_left (by omega)).subset hline

/-- Taking a line off the sequence takes the first of its lines. -/
theorem lines_of_takeLine {as line rest : List α} (h : takeLine sep as = some (line, rest))
    (bs : List α) : lines sep (as ++ bs) = line :: lines sep (rest ++ bs) := by
  obtain ⟨piece, hpiece, rfl, rfl⟩ := takeLine_eq_some h
  rw [List.append_assoc, List.cons_append, lines_append _ _ hpiece]

/-- Whether every line of the sequence has at most `cap` elements, where `n` of the first line
have come before. -/
def linesFit (sep : α) (cap : ℕ) : ℕ → List α → Bool
  | _, [] => true
  | n, a :: as =>
    if cap < n + 1 then false else linesFit sep cap (if a = sep then 0 else n + 1) as

/-- The lines fit, where `n` elements of the first one have come before. -/
def FitFrom (cap n : ℕ) : List (List α) → Prop
  | [] => True
  | line :: rest => n + line.length ≤ cap ∧ ∀ l ∈ rest, l.length ≤ cap

omit [DecidableEq α] in
theorem fitFrom_zero {cap : ℕ} {ls : List (List α)} :
    FitFrom cap 0 ls ↔ ∀ l ∈ ls, l.length ≤ cap := by
  cases ls with
  | nil => simp [FitFrom]
  | cons line rest => simp [FitFrom]

theorem linesFit_iff {cap : ℕ} (n : ℕ) (as : List α) :
    linesFit sep cap n as = true ↔ FitFrom cap n (lines sep as) := by
  induction as generalizing n with
  | nil => simp [linesFit, lines, FitFrom]
  | cons a as ih =>
    unfold linesFit lines
    split_ifs with hcap ha ha
    · simp only [FitFrom, List.length_cons, List.length_nil, false_iff]
      omega
    · simp only [false_iff]
      cases lines sep as <;> simp only [FitFrom, List.length_cons, List.length_nil] <;> omega
    · rw [ih, fitFrom_zero]
      simp only [FitFrom, List.length_cons, List.length_nil]
      exact ⟨fun h => ⟨by omega, h⟩, fun h => h.2⟩
    · rw [ih]
      cases lines sep as with
      | nil =>
        simp only [FitFrom, List.length_cons, List.length_nil, List.not_mem_nil, false_imp_iff,
          implies_true, and_true, true_iff]
        omega
      | cons line rest =>
        simp only [FitFrom, List.length_cons]
        rw [show n + 1 + line.length = n + (line.length + 1) by omega]

/-- A beginning of fitting lines consists of fitting lines. -/
theorem linesFit_of_append {cap n : ℕ} {as bs : List α} (h : linesFit sep cap n (as ++ bs) = true) :
    linesFit sep cap n as = true := by
  induction as generalizing n with
  | nil => rfl
  | cons a as ih =>
    rw [List.cons_append] at h
    unfold linesFit at h ⊢
    split_ifs at h ⊢ with hcap ha
    · exact ih h
    · exact ih h

/-- An unterminated beginning is a part of the first line. -/
theorem length_le_of_linesFit {cap : ℕ} {piece as : List α} (h : sep ∉ piece)
    (hfit : linesFit sep cap 0 (piece ++ as) = true) : piece.length ≤ cap := by
  by_cases hne : piece = []
  · rw [hne]
    exact Nat.zero_le cap
  · have hpiece := (linesFit_iff 0 piece).mp (linesFit_of_append hfit)
    rw [lines_of_notMem h hne, fitFrom_zero] at hpiece
    exact hpiece piece (List.mem_singleton_self piece)

/-- What follows a terminated line consists of the other lines. -/
theorem linesFit_of_takeLine {cap : ℕ} {as line rest : List α}
    (h : takeLine sep as = some (line, rest)) (hfit : linesFit sep cap 0 as = true) :
    linesFit sep cap 0 rest = true := by
  have hlines := lines_of_takeLine h []
  rw [List.append_nil, List.append_nil] at hlines
  rw [linesFit_iff, fitFrom_zero] at hfit ⊢
  exact fun l hl => hfit l (hlines ▸ List.mem_cons_of_mem _ hl)

/-- The check of a piece behind an unterminated line is that of their concatenation. -/
theorem linesFit_append {cap : ℕ} {piece as : List α} (h : sep ∉ piece) (n : ℕ)
    (hfit : n + piece.length ≤ cap) :
    linesFit sep cap n (piece ++ as) = linesFit sep cap (n + piece.length) as := by
  induction piece generalizing n with
  | nil => rfl
  | cons a piece ih =>
    rw [List.mem_cons, not_or] at h
    rw [List.length_cons] at hfit
    rw [List.cons_append, linesFit, if_neg (by omega), if_neg (Ne.symm h.1), ih h.2 _ (by omega),
      List.length_cons]
    congr 1
    omega

end Lines
