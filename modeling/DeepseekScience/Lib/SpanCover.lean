import Mathlib.Tactic

/-! Replacing spans of a log by labels in one pass. The spans come sorted by their start and
may overlap, touch, contain each other or be empty; a single cursor runs over their union.
The pass cuts the log into the maximal runs of covered positions, and every run shows the
labels of the spans that extend the coverage. -/
namespace SpanCover

variable {ι α σ : Type*}

/-- Position `i` lies in the span. -/
def Covers (start stop : ι → ℕ) (s : ι) (i : ℕ) : Prop := start s ≤ i ∧ i < stop s

/-- The span covers a position that none of the earlier ones covers. -/
def Extends (start stop : ι → ℕ) (earlier : List ι) (s : ι) : Prop :=
  ∃ i, Covers start stop s i ∧ ∀ g ∈ earlier, ¬ Covers start stop g i

open Classical in
/-- The spans that extend the coverage of the ones in front of them, in order. -/
noncomputable def extending (start stop : ι → ℕ) : List ι → List ι → List ι
  | _, [] => []
  | earlier, s :: rest =>
    if Extends start stop earlier s then s :: extending start stop (earlier ++ [s]) rest
    else extending start stop (earlier ++ [s]) rest

/-- A run of covered positions with the spans that are shown for it. -/
structure Run (ι : Type*) where
  first : ℕ
  last : ℕ
  spans : List ι

/-- Runs at or behind `from'`, in order, not empty, and with a gap between them. -/
def Separated : ℕ → List (Run ι) → Prop
  | _, [] => True
  | from', r :: rs => from' ≤ r.first ∧ r.first < r.last ∧ Separated (r.last + 1) rs

/-- The log from `from'` on, with every run replaced by its labels. -/
def weave (log : List α) (render : ι → α) : ℕ → List (Run ι) → List α
  | from', [] => log.drop from'
  | from', r :: rs =>
    (log.take r.first).drop from' ++ (r.spans.map render ++ weave log render r.last rs)

/-- The pass over the spans with a single cursor. -/
def replaceSpans (start stop : ι → ℕ) (log : List α) (render : ι → α) : List ι → ℕ → List α
  | [], cursor => log.drop cursor
  | s :: rest, cursor =>
    if start s < cursor then
      if cursor < stop s then render s :: replaceSpans start stop log render rest (stop s)
      else replaceSpans start stop log render rest cursor
    else if stop s ≤ start s then replaceSpans start stop log render rest cursor
    else
      (log.take (start s)).drop cursor ++
        render s :: replaceSpans start stop log render rest (stop s)

theorem Separated.mono {a b : ℕ} {runs : List (Run ι)} (h : Separated b runs) (hab : a ≤ b) :
    Separated a runs := by
  cases runs with
  | nil => trivial
  | cons r rs => exact ⟨le_trans hab h.1, h.2⟩

theorem Separated.le_first {from' : ℕ} {runs : List (Run ι)} (h : Separated from' runs)
    {r : Run ι} (hr : r ∈ runs) : from' ≤ r.first ∧ r.first < r.last := by
  induction runs generalizing from' with
  | nil => simp at hr
  | cons q rs ih =>
    rcases List.mem_cons.mp hr with rfl | hr
    · exact ⟨h.1, h.2.1⟩
    · have := ih h.2.2 hr
      exact ⟨by have := h.1; have := h.2.1; omega, this.2⟩

section
variable (start stop : ι → ℕ)

/-- What one pass leaves behind: the spans that still belong to the run that ends at the
cursor, its end, and the runs behind it. -/
structure Passed (log : List α) (render : ι → α) (lo cursor : ℕ) (earlier spans : List ι)
    (more : List ι) (last : ℕ) (runs : List (Run ι)) : Prop where
  out : replaceSpans start stop log render spans cursor =
    more.map render ++ weave log render last runs
  le_last : cursor ≤ last
  separated : Separated (last + 1) runs
  covered : ∀ i, lo ≤ i → ((∃ s ∈ earlier ++ spans, Covers start stop s i) ↔
    i < last ∨ ∃ r ∈ runs, r.first ≤ i ∧ i < r.last)
  shown : more ++ runs.flatMap Run.spans = extending start stop earlier spans
  more_mem : ∀ s ∈ more, s ∈ spans ∧ stop s ≤ last
  current : more = [] ∧ last = cursor ∨
    cursor < last ∧ (∃ s ∈ more, start s ≤ cursor) ∧ ∃ s ∈ more, stop s = last
  run_spans : ∀ r ∈ runs, ∀ s ∈ r.spans, s ∈ spans ∧ r.first ≤ start s ∧ stop s ≤ r.last
  run_first : ∀ r ∈ runs, ∃ s ∈ r.spans, start s = r.first
  run_last : ∀ r ∈ runs, ∃ s ∈ r.spans, stop s = r.last

variable {start stop} {log : List α} {render : ι → α} {lo cursor : ℕ} {earlier spans : List ι}

/-- A span that joins the run at the cursor and extends it. -/
theorem Passed.join {s : ι} {more : List ι} {last : ℕ} {runs : List (Run ι)}
    (h : Passed start stop log render (start s) (stop s) (earlier ++ [s]) spans more last runs)
    (hearlier : ∀ i, lo ≤ i → ((∃ g ∈ earlier, Covers start stop g i) ↔ i < cursor))
    (hlo : lo ≤ start s) (hstart : start s ≤ cursor) (hstop : cursor < stop s)
    (hlocursor : lo ≤ cursor)
    (hout : replaceSpans start stop log render (s :: spans) cursor =
      render s :: replaceSpans start stop log render spans (stop s)) :
    Passed start stop log render lo cursor earlier (s :: spans) (s :: more) last runs where
  out := by rw [hout, h.out, List.map_cons, List.cons_append]
  le_last := le_trans hstop.le h.le_last
  separated := h.separated
  covered := by
    intro i hi
    by_cases hlt : i < start s
    · have hcur : i < cursor := by omega
      obtain ⟨g, hg, hc⟩ := (hearlier i hi).mpr hcur
      have hlast := h.le_last
      exact ⟨fun _ => Or.inl (by omega), fun _ => ⟨g, List.mem_append_left _ hg, hc⟩⟩
    · simpa using h.covered i (by omega)
  shown := by
    have hext : Extends start stop earlier s := by
      refine ⟨cursor, ⟨hstart, hstop⟩, fun g hg hc => ?_⟩
      have := (hearlier cursor hlocursor).mp ⟨g, hg, hc⟩
      omega
    rw [extending, if_pos hext, ← h.shown, List.cons_append]
  more_mem := by
    intro t ht
    rcases List.mem_cons.mp ht with rfl | ht
    · exact ⟨List.mem_cons_self, h.le_last⟩
    · exact ⟨List.mem_cons_of_mem _ (h.more_mem t ht).1, (h.more_mem t ht).2⟩
  current := by
    refine Or.inr ⟨lt_of_lt_of_le hstop h.le_last, ⟨s, List.mem_cons_self, hstart⟩, ?_⟩
    rcases h.current with ⟨-, hlast⟩ | ⟨-, -, t, ht, hlast⟩
    · exact ⟨s, List.mem_cons_self, hlast.symm⟩
    · exact ⟨t, List.mem_cons_of_mem _ ht, hlast⟩
  run_spans := fun r hr t ht =>
    ⟨List.mem_cons_of_mem _ (h.run_spans r hr t ht).1, (h.run_spans r hr t ht).2⟩
  run_first := h.run_first
  run_last := h.run_last

/-- A span that adds no coverage. -/
theorem Passed.skip {s : ι} {lo' : ℕ} {more : List ι} {last : ℕ} {runs : List (Run ι)}
    (h : Passed start stop log render lo' cursor (earlier ++ [s]) spans more last runs)
    (hearlier : ∀ i, lo ≤ i → ((∃ g ∈ earlier, Covers start stop g i) ↔ i < cursor))
    (hlo' : lo' ≤ lo ∨ lo' ≤ cursor) (hlo : lo ≤ start s) (hstop : stop s ≤ max cursor (start s))
    (hout : replaceSpans start stop log render (s :: spans) cursor =
      replaceSpans start stop log render spans cursor) :
    Passed start stop log render lo cursor earlier (s :: spans) more last runs where
  out := by rw [hout, h.out]
  le_last := h.le_last
  separated := h.separated
  covered := by
    intro i hi
    by_cases hlt : i < lo'
    · have hcur : i < cursor := by omega
      obtain ⟨g, hg, hc⟩ := (hearlier i hi).mpr hcur
      have hlast := h.le_last
      exact ⟨fun _ => Or.inl (by omega), fun _ => ⟨g, List.mem_append_left _ hg, hc⟩⟩
    · simpa using h.covered i (by omega)
  shown := by
    have hext : ¬ Extends start stop earlier s := by
      rintro ⟨i, ⟨hle, hlt⟩, hnot⟩
      obtain ⟨g, hg, hc⟩ := (hearlier i (by omega)).mpr (by omega)
      exact hnot g hg hc
    rw [extending, if_neg hext, h.shown]
  more_mem := fun t ht => ⟨List.mem_cons_of_mem _ (h.more_mem t ht).1, (h.more_mem t ht).2⟩
  current := h.current
  run_spans := fun r hr t ht =>
    ⟨List.mem_cons_of_mem _ (h.run_spans r hr t ht).1, (h.run_spans r hr t ht).2⟩
  run_first := h.run_first
  run_last := h.run_last

/-- A span behind the cursor, which closes the run there and starts a new one. -/
theorem Passed.begin {s : ι} {more : List ι} {last : ℕ} {runs : List (Run ι)}
    (h : Passed start stop log render (start s) (stop s) (earlier ++ [s]) spans more last runs)
    (hearlier : ∀ i, lo ≤ i → ((∃ g ∈ earlier, Covers start stop g i) ↔ i < cursor))
    (hsorted : ∀ t ∈ spans, start s ≤ start t) (hlo : lo ≤ start s) (hstart : cursor < start s)
    (hstop : start s < stop s)
    (hout : replaceSpans start stop log render (s :: spans) cursor =
      (log.take (start s)).drop cursor ++
        render s :: replaceSpans start stop log render spans (stop s)) :
    Passed start stop log render lo cursor earlier (s :: spans) [] cursor
      (⟨start s, last, s :: more⟩ :: runs) where
  out := by rw [hout, h.out, List.map_nil, List.nil_append, weave, List.map_cons, List.cons_append]
  le_last := le_rfl
  separated := ⟨hstart, lt_of_lt_of_le hstop h.le_last, h.separated⟩
  covered := by
    intro i hi
    have hlast := h.le_last
    by_cases hlt : i < start s
    · have hnone : ∀ t ∈ s :: spans, ¬ Covers start stop t i := by
        intro t ht hc
        have hle : start s ≤ start t := by
          rcases List.mem_cons.mp ht with rfl | ht
          · exact le_rfl
          · exact hsorted t ht
        exact absurd hc.1 (by omega)
      have hruns : ∀ r ∈ (⟨start s, last, s :: more⟩ : Run ι) :: runs, ¬ r.first ≤ i := by
        intro r hr
        rcases List.mem_cons.mp hr with rfl | hr
        · exact by simpa using hlt
        · have := (h.separated.le_first hr).1
          omega
      constructor
      · rintro ⟨t, ht, hc⟩
        rcases List.mem_append.mp ht with ht | ht
        · exact Or.inl ((hearlier i hi).mp ⟨t, ht, hc⟩)
        · exact absurd hc (hnone t ht)
      · rintro (hc | ⟨r, hr, hf, -⟩)
        · obtain ⟨g, hg, hc⟩ := (hearlier i hi).mpr hc
          exact ⟨g, List.mem_append_left _ hg, hc⟩
        · exact absurd hf (hruns r hr)
    · have hle : start s ≤ i := by omega
      have hcov := h.covered i hle
      rw [List.append_assoc, List.singleton_append] at hcov
      rw [hcov]
      constructor
      · rintro (hc | ⟨r, hr, hc⟩)
        · exact Or.inr ⟨_, List.mem_cons_self, hle, hc⟩
        · exact Or.inr ⟨r, List.mem_cons_of_mem _ hr, hc⟩
      · rintro (hc | ⟨r, hr, hc⟩)
        · omega
        · rcases List.mem_cons.mp hr with rfl | hr
          · exact Or.inl hc.2
          · exact Or.inr ⟨r, hr, hc⟩
  shown := by
    have hext : Extends start stop earlier s := by
      refine ⟨start s, ⟨le_rfl, hstop⟩, fun g hg hc => ?_⟩
      have := (hearlier (start s) hlo).mp ⟨g, hg, hc⟩
      omega
    rw [extending, if_pos hext, ← h.shown, List.nil_append, List.flatMap_cons, List.cons_append]
  more_mem := by simp
  current := Or.inl ⟨rfl, rfl⟩
  run_spans := by
    intro r hr t ht
    rcases List.mem_cons.mp hr with rfl | hr
    · rcases List.mem_cons.mp ht with rfl | ht
      · exact ⟨List.mem_cons_self, le_rfl, h.le_last⟩
      · have := h.more_mem t ht
        exact ⟨List.mem_cons_of_mem _ this.1, hsorted t this.1, this.2⟩
    · exact ⟨List.mem_cons_of_mem _ (h.run_spans r hr t ht).1, (h.run_spans r hr t ht).2⟩
  run_first := by
    intro r hr
    rcases List.mem_cons.mp hr with rfl | hr
    · exact ⟨s, List.mem_cons_self, rfl⟩
    · exact h.run_first r hr
  run_last := by
    intro r hr
    rcases List.mem_cons.mp hr with rfl | hr
    · rcases h.current with ⟨-, hlast⟩ | ⟨-, -, t, ht, hlast⟩
      · exact ⟨s, List.mem_cons_self, hlast.symm⟩
      · exact ⟨t, List.mem_cons_of_mem _ ht, hlast⟩
    · exact h.run_last r hr

/-- The invariant of the pass, by induction on the spans that are left. -/
theorem exists_passed (spans : List ι) {lo cursor : ℕ} {earlier : List ι} (hle : lo ≤ cursor)
    (hearlier : ∀ i, lo ≤ i → ((∃ g ∈ earlier, Covers start stop g i) ↔ i < cursor))
    (hlo : ∀ s ∈ spans, lo ≤ start s) (hsorted : spans.Pairwise fun s t => start s ≤ start t) :
    ∃ more last runs, Passed start stop log render lo cursor earlier spans more last runs := by
  induction spans generalizing lo cursor earlier with
  | nil =>
    refine ⟨[], cursor, [], rfl, le_rfl, trivial, ?_, rfl, by simp, Or.inl ⟨rfl, rfl⟩, by simp,
      by simp, by simp⟩
    intro i hi
    simpa using hearlier i hi
  | cons s spans ih =>
    obtain ⟨hhead, htail⟩ := List.pairwise_cons.mp hsorted
    have hlos := hlo s List.mem_cons_self
    have hadd : ∀ i, start s ≤ i →
        ((∃ g ∈ earlier ++ [s], Covers start stop g i) ↔ i < cursor ∨ i < stop s) := by
      intro i hi
      have hs : Covers start stop s i ↔ i < stop s := by simp only [Covers, hi, true_and]
      simp only [List.mem_append, List.mem_singleton, or_and_right, exists_or, exists_eq_left,
        hearlier i (by omega), hs]
    by_cases hempty : stop s ≤ start s
    · have hnone : ∀ i, lo ≤ i →
          ((∃ g ∈ earlier ++ [s], Covers start stop g i) ↔ i < cursor) := by
        intro i hi
        have hs : ¬ Covers start stop s i := fun hc => by
          have h1 := hc.1
          have h2 := hc.2
          omega
        simp only [List.mem_append, List.mem_singleton, or_and_right, exists_or, exists_eq_left,
          hearlier i hi, hs, or_false]
      obtain ⟨more, last, runs, h⟩ :=
        ih hle hnone (fun t ht => hlo t (List.mem_cons_of_mem _ ht)) htail
      refine ⟨more, last, runs, h.skip hearlier (Or.inl le_rfl) hlos (by omega) ?_⟩
      rw [replaceSpans]
      split_ifs
      · omega
      · rfl
      · rfl
    · by_cases hin : stop s ≤ cursor
      · have hfrom : start s ≤ cursor := by omega
        have hcovers : ∀ i, start s ≤ i →
            ((∃ g ∈ earlier ++ [s], Covers start stop g i) ↔ i < cursor) := by
          intro i hi
          rw [hadd i hi]
          omega
        obtain ⟨more, last, runs, h⟩ := ih hfrom hcovers hhead htail
        refine ⟨more, last, runs, h.skip hearlier (Or.inr (by omega)) hlos (by omega) ?_⟩
        rw [replaceSpans, if_pos (by omega), if_neg (by omega)]
      · have hfrom : start s ≤ stop s := by omega
        have hcovers : ∀ i, start s ≤ i →
            ((∃ g ∈ earlier ++ [s], Covers start stop g i) ↔ i < stop s) := by
          intro i hi
          rw [hadd i hi]
          omega
        obtain ⟨more, last, runs, h⟩ := ih hfrom hcovers hhead htail
        by_cases hjoin : start s ≤ cursor
        · refine ⟨s :: more, last, runs, h.join hearlier hlos hjoin (by omega) hle ?_⟩
          rw [replaceSpans]
          split_ifs
          · rfl
          · omega
          · obtain rfl : cursor = start s := by omega
            simp
        · refine ⟨[], cursor, ⟨start s, last, s :: more⟩ :: runs,
            h.begin hearlier hhead hlos (by omega) (by omega) ?_⟩
          rw [replaceSpans, if_neg (by omega), if_neg hempty]

/-- The pass shows every position outside of the coverage, in order, and for every maximal run
of covered positions the labels of the spans that extend the coverage there. -/
structure Replaced (start stop : ι → ℕ) (log : List α) (render : ι → α) (spans : List ι)
    (out : List α) (runs : List (Run ι)) : Prop where
  out : out = weave log render 0 runs
  separated : Separated 0 runs
  covered : ∀ i, (∃ s ∈ spans, Covers start stop s i) ↔ ∃ r ∈ runs, r.first ≤ i ∧ i < r.last
  shown : runs.flatMap Run.spans = extending start stop [] spans
  inside : ∀ r ∈ runs, ∀ s ∈ r.spans, s ∈ spans ∧ r.first ≤ start s ∧ stop s ≤ r.last
  first : ∀ r ∈ runs, ∃ s ∈ r.spans, start s = r.first
  last : ∀ r ∈ runs, ∃ s ∈ r.spans, stop s = r.last

theorem exists_replaced (log : List α) (render : ι → α) {spans : List ι}
    (hsorted : spans.Pairwise fun s t => start s ≤ start t) :
    ∃ runs, Replaced start stop log render spans (replaceSpans start stop log render spans 0)
      runs := by
  have hpassed : ∃ more last runs,
      Passed start stop log render 0 0 [] spans more last runs :=
    exists_passed spans le_rfl (by simp) (by simp) hsorted
  obtain ⟨more, last, runs, h⟩ := hpassed
  rcases h.current with ⟨rfl, rfl⟩ | ⟨hpos, ⟨s, hs, hstart⟩, t, ht, hlast⟩
  · refine ⟨runs, ?_, h.separated.mono (Nat.zero_le _), ?_, h.shown, h.run_spans, h.run_first,
      h.run_last⟩
    · simpa using h.out
    · simpa using fun i => h.covered i (Nat.zero_le i)
  · refine ⟨⟨0, last, more⟩ :: runs, ?_, ⟨le_rfl, hpos, h.separated⟩, ?_, ?_, ?_, ?_, ?_⟩
    · rw [h.out, weave]
      simp
    · intro i
      have := h.covered i (Nat.zero_le i)
      simpa using this
    · rw [← h.shown, List.flatMap_cons]
    · intro r hr q hq
      rcases List.mem_cons.mp hr with rfl | hr
      · exact ⟨(h.more_mem q hq).1, Nat.zero_le _, (h.more_mem q hq).2⟩
      · exact h.run_spans r hr q hq
    · intro r hr
      rcases List.mem_cons.mp hr with rfl | hr
      · exact ⟨s, hs, by simpa using hstart⟩
      · exact h.run_first r hr
    · intro r hr
      rcases List.mem_cons.mp hr with rfl | hr
      · exact ⟨t, ht, hlast⟩
      · exact h.run_last r hr

end
/-- Behind the last run nothing is replaced. -/
theorem drop_suffix_weave (log : List α) (render : ι → α) {n from' : ℕ} {runs : List (Run ι)}
    (hfrom : from' ≤ n) (hruns : ∀ r ∈ runs, r.last ≤ n) :
    log.drop n <:+ weave log render from' runs := by
  induction runs generalizing from' with
  | nil =>
    rw [weave, ← Nat.add_sub_cancel' hfrom, ← List.drop_drop]
    exact List.drop_suffix _ _
  | cons r rs ih =>
    have := ih (hruns r List.mem_cons_self) fun q hq => hruns q (List.mem_cons_of_mem _ hq)
    exact this.trans ((List.suffix_append _ _).trans (List.suffix_append _ _))

section
variable (step : σ → α → Option σ) (home : σ)

/-- The automaton is home again after the first `i` entries of the log. -/
def Cut (log : List α) (i : ℕ) : Prop := (log.take i).foldlM step home = some home

variable {step home} {log : List α}

theorem Cut.segment {a b : ℕ} (ha : Cut step home log a) (hb : Cut step home log b) (hab : a ≤ b) :
    ((log.take b).drop a).foldlM step home = some home := by
  have hsplit := List.take_append_drop a (log.take b)
  rw [List.take_take, min_eq_left hab] at hsplit
  rw [Cut] at ha hb
  rw [← hsplit, List.foldlM_append, ha] at hb
  exact hb

/-- Runs between cuts can be replaced without the automaton noticing. -/
theorem foldlM_weave {render : ι → α} (hrender : ∀ s, step home (render s) = some home)
    (hlog : log.foldlM step home = some home) {from' : ℕ} {runs : List (Run ι)}
    (hfrom : Cut step home log from') (hsep : Separated from' runs)
    (hcuts : ∀ r ∈ runs, Cut step home log r.first ∧ Cut step home log r.last) :
    (weave log render from' runs).foldlM step home = some home := by
  have hlabels : ∀ spans : List ι, (spans.map render).foldlM step home = some home := by
    intro spans
    induction spans with
    | nil => rfl
    | cons s spans ih => simpa [hrender s] using ih
  induction runs generalizing from' with
  | nil =>
    rw [Cut] at hfrom
    have hsplit := List.take_append_drop from' log
    rw [← hsplit, List.foldlM_append, hfrom] at hlog
    exact hlog
  | cons r rs ih =>
    obtain ⟨hfirst, hlast⟩ := hcuts r List.mem_cons_self
    have hrest := ih hlast (hsep.2.2.mono (Nat.le_succ _)) fun q hq =>
      hcuts q (List.mem_cons_of_mem _ hq)
    rw [weave, List.foldlM_append, hfrom.segment hfirst hsep.1]
    simp only [Option.bind_eq_bind, Option.bind_some, List.foldlM_append, hlabels, hrest]

end
section
/-! One more span in a gap of the others. -/

variable (start stop : ι → ℕ)

/-- Where the cursor stands behind some spans. -/
def cursorAfter : List ι → ℕ → ℕ
  | [], cursor => cursor
  | s :: rest, cursor => cursorAfter rest (if start s < stop s then max cursor (stop s) else cursor)

variable {start stop}

theorem le_cursorAfter (spans : List ι) (cursor : ℕ) :
    cursor ≤ cursorAfter start stop spans cursor := by
  induction spans generalizing cursor with
  | nil => exact le_rfl
  | cons s rest ih =>
    rw [cursorAfter]
    refine le_trans ?_ (ih _)
    split_ifs
    · exact le_max_left _ _
    · exact le_rfl

theorem stop_le_cursorAfter {spans : List ι} {s : ι} (hs : s ∈ spans) (hlt : start s < stop s)
    (cursor : ℕ) : stop s ≤ cursorAfter start stop spans cursor := by
  induction spans generalizing cursor with
  | nil => cases hs
  | cons t rest ih =>
    rw [cursorAfter]
    rcases List.mem_cons.mp hs with rfl | hs
    · rw [if_pos hlt]
      exact le_trans (le_max_right _ _) (le_cursorAfter _ _)
    · exact ih hs _

theorem cursorAfter_le {spans : List ι} {cursor bound : ℕ} (hcursor : cursor ≤ bound)
    (h : ∀ s ∈ spans, start s < stop s → stop s ≤ bound) :
    cursorAfter start stop spans cursor ≤ bound := by
  induction spans generalizing cursor with
  | nil => exact hcursor
  | cons s rest ih =>
    rw [cursorAfter]
    apply ih
    · split_ifs with hlt
      · exact max_le hcursor (h s List.mem_cons_self hlt)
      · exact hcursor
    · exact fun t ht => h t (List.mem_cons_of_mem _ ht)

variable {log : List α} {render : ι → α}

theorem replaceSpans_empty {s : ι} {rest : List ι} {cursor : ℕ} (h : stop s ≤ start s) :
    replaceSpans start stop log render (s :: rest) cursor =
      replaceSpans start stop log render rest cursor := by
  rw [replaceSpans]
  split_ifs
  · omega
  · rfl
  · rfl

/-- What some spans show does not depend on what follows them. -/
theorem exists_replaceSpans_append (start stop : ι → ℕ) (log : List α) (render : ι → α)
    (front : List ι) (cursor : ℕ) :
    ∃ shown, ∀ back, replaceSpans start stop log render (front ++ back) cursor =
      shown ++ replaceSpans start stop log render back (cursorAfter start stop front cursor) := by
  induction front generalizing cursor with
  | nil => exact ⟨[], fun _ => rfl⟩
  | cons s rest ih =>
    rcases Nat.lt_or_ge (start s) (stop s) with hlt | hge
    · obtain ⟨shown, hshown⟩ := ih (max cursor (stop s))
      rcases Nat.lt_or_ge (start s) cursor with hjoin | hjoin
      · rcases Nat.lt_or_ge cursor (stop s) with hmore | hmore
        · rw [max_eq_right hmore.le] at hshown
          refine ⟨render s :: shown, fun back => ?_⟩
          rw [List.cons_append, replaceSpans, if_pos hjoin, if_pos hmore, cursorAfter, if_pos hlt,
            max_eq_right hmore.le, hshown, List.cons_append]
        · rw [max_eq_left hmore] at hshown
          refine ⟨shown, fun back => ?_⟩
          rw [List.cons_append, replaceSpans, if_pos hjoin, if_neg (by omega), cursorAfter,
            if_pos hlt, max_eq_left hmore, hshown]
      · rw [max_eq_right (by omega)] at hshown
        refine ⟨(log.take (start s)).drop cursor ++ render s :: shown, fun back => ?_⟩
        rw [List.cons_append, replaceSpans, if_neg (by omega), if_neg (by omega), cursorAfter,
          if_pos hlt, max_eq_right (by omega), hshown, List.append_assoc, List.cons_append]
    · obtain ⟨shown, hshown⟩ := ih cursor
      refine ⟨shown, fun back => ?_⟩
      rw [List.cons_append, replaceSpans_empty hge, cursorAfter, if_neg (by omega), hshown]

/-- In front of the next span the log shows as it is. -/
theorem replaceSpans_gap {back : List ι} {first last : ℕ} (hle : first ≤ last)
    (h : ∀ s ∈ back, start s < stop s → last ≤ start s) :
    replaceSpans start stop log render back first =
      (log.take last).drop first ++ replaceSpans start stop log render back last := by
  have hsplit : ∀ n, last ≤ n →
      (log.take n).drop first = (log.take last).drop first ++ (log.take n).drop last := by
    intro n hn
    have htake : (log.take n).take last = log.take last := by rw [List.take_take, min_eq_left hn]
    conv_lhs => rw [← List.take_append_drop last (log.take n), htake]
    rcases Nat.lt_or_ge log.length last with hlt | hge
    · have hnil : (log.take n).drop last = [] := by
        apply List.drop_eq_nil_of_le
        rw [List.length_take]
        omega
      rw [hnil, List.append_nil, List.append_nil]
    · rw [List.drop_append_of_le_length (by rw [List.length_take]; omega)]
  induction back with
  | nil =>
    have := hsplit (max last log.length) (le_max_left _ _)
    rwa [List.take_of_length_le (le_max_right _ _)] at this
  | cons s rest ih =>
    have hrest := ih fun t ht => h t (List.mem_cons_of_mem _ ht)
    rcases Nat.lt_or_ge (start s) (stop s) with hlt | hge
    · have hstart := h s List.mem_cons_self hlt
      rw [replaceSpans, if_neg (by omega), if_neg (by omega), replaceSpans, if_neg (by omega),
        if_neg (by omega), hsplit _ hstart, List.append_assoc]
    · rw [replaceSpans_empty hge, replaceSpans_empty hge, hrest]

/-- A span that fills a gap, or the front part of one, replaces just its own entries. -/
theorem replaceSpans_insert (log : List α) (render : ι → α) {front back : List ι} {s : ι}
    (hlt : start s < stop s) (hcursor : cursorAfter start stop front 0 = start s)
    (hback : ∀ t ∈ back, start t < stop t → stop s ≤ start t) :
    ∃ before after,
      replaceSpans start stop log render (front ++ back) 0 =
        before ++ (log.take (stop s)).drop (start s) ++ after ∧
      replaceSpans start stop log render (front ++ s :: back) 0 = before ++ render s :: after := by
  obtain ⟨shown, hshown⟩ := exists_replaceSpans_append start stop log render front 0
  refine ⟨shown, replaceSpans start stop log render back (stop s), ?_, ?_⟩
  · rw [hshown, hcursor, replaceSpans_gap hlt.le hback, List.append_assoc]
  · rw [hshown, hcursor, replaceSpans, if_neg (lt_irrefl _), if_neg (by omega)]
    simp

end
end SpanCover
