import DeepseekScience.Frontend.SessionMessages

/-! Runs are attached to messages by their ranges: runs with disjoint ranges never take the same
message, so each run stays at the last message of its range. -/
namespace DeepseekScience.Frontend

/-- The sequence number lies in the range of a finished run. -/
def SessionRun.Covers (run : SessionRun) (seq : ℤ) : Prop :=
  ∃ endSeq, run.endSeq = some endSeq ∧ run.startSeq.getD 0 ≤ seq ∧ seq ≤ endSeq

def InRange (run : SessionRun) (m : Message) : Prop := ∃ seq, m.sourceSeq = some seq ∧ run.Covers seq

/-- No sequence number lies in the ranges of two runs. -/
def DisjointRanges (runs : List SessionRun) : Prop :=
  runs.Pairwise fun run other => ∀ seq, run.Covers seq → ¬other.Covers seq

/-- A message that lies in the range of a run is one of that run, or of none. -/
def OfItsRun (messages : List Message) (runs : List SessionRun) : Prop :=
  ∀ m ∈ messages, ∀ run ∈ runs, InRange run m →
    ∀ id, m.sourceRunId = some id → id = [] ∨ id = run.runId

/-- The last message in the range of a run. -/
def LastInRange (run : SessionRun) (messages : List Message) (place : ℕ) : Prop :=
  (∃ m, messages[place]? = some m ∧ InRange run m) ∧
    ∀ later m, place < later → messages[later]? = some m → ¬InRange run m

def Message.withoutRun (m : Message) : Message := { m with run := none }

/-- Nothing but the runs is new, and every run stands at the last message of its range and nowhere
else. -/
structure AttachesEachRun (runs : List SessionRun) (messages attached : List Message) : Prop where
  frame : attached.map Message.withoutRun = messages.map Message.withoutRun
  last : ∀ place m run, attached[place]? = some m →
    (m.run = some run ↔ run ∈ runs ∧ LastInRange run messages place)

theorem footerFits_iff {run : SessionRun} {endSeq : ℤ} {m : Message}
    (hend : run.endSeq = some endSeq)
    (hown : InRange run m → ∀ id, m.sourceRunId = some id → id = [] ∨ id = run.runId) :
    footerFits run endSeq m = true ↔ InRange run m := by
  constructor
  · intro h
    unfold footerFits at h
    cases hseq : m.sourceSeq with
    | none => simp [hseq] at h
    | some seq =>
      simp only [hseq, Bool.and_eq_true, decide_eq_true_eq] at h
      exact ⟨seq, hseq, endSeq, hend, h.1.1, h.1.2⟩
  · intro hrange
    have hid := hown hrange
    obtain ⟨seq, hseq, endSeq', hend', hlower, hupper⟩ := hrange
    obtain rfl := Option.some.inj (hend.symm.trans hend')
    unfold footerFits
    simp only [hseq, Bool.and_eq_true, decide_eq_true_eq]
    constructor
    · exact ⟨hlower, hupper⟩
    · cases hrun : m.sourceRunId with
      | none => rfl
      | some id => simpa using hid id hrun

theorem le_lastFit {fits : Message → Bool} {start found : ℕ} {messages : List Message}
    (h : lastFit fits start messages = some found) : start ≤ found := by
  induction messages generalizing start with
  | nil => simp [lastFit] at h
  | cons m rest ih =>
    rw [lastFit] at h
    cases hlater : lastFit fits (start + 1) rest with
    | some later =>
      simp only [hlater, Option.some_or, Option.some.injEq] at h
      subst h
      have := ih hlater
      omega
    | none =>
      simp only [hlater, Option.none_or] at h
      split_ifs at h
      simp only [Option.some.injEq] at h
      omega

theorem lastFit_eq_none {fits : Message → Bool} {start : ℕ} {messages : List Message}
    (h : lastFit fits start messages = none) : ∀ m ∈ messages, fits m = false := by
  induction messages generalizing start with
  | nil => simp
  | cons m rest ih =>
    rw [lastFit, Option.or_eq_none_iff] at h
    intro m' hm'
    rcases List.mem_cons.mp hm' with rfl | hm'
    · simpa using h.2
    · exact ih h.1 m' hm'

/-- The last place that fits, by induction on the list. -/
theorem lastFit_eq_some {fits : Message → Bool} {start place : ℕ} {messages : List Message} :
    lastFit fits start messages = some (start + place) ↔
      (∃ m, messages[place]? = some m ∧ fits m = true) ∧
        ∀ later m, place < later → messages[later]? = some m → fits m = false := by
  induction messages generalizing start place with
  | nil => simp [lastFit]
  | cons m rest ih =>
    rw [lastFit]
    cases place with
    | succ place =>
      have hshift : start + (place + 1) = start + 1 + place := by omega
      rw [hshift]
      constructor
      · intro h
        cases hlater : lastFit fits (start + 1) rest with
        | some later =>
          simp only [hlater, Option.some_or] at h
          rw [h] at hlater
          obtain ⟨hfound, hnone⟩ := ih.mp hlater
          constructor
          · simpa using hfound
          · intro later m' hlt hm'
            obtain ⟨later, rfl⟩ : ∃ k, later = k + 1 := ⟨later - 1, by omega⟩
            exact hnone later m' (by omega) (by simpa using hm')
        | none =>
          simp only [hlater, Option.none_or] at h
          split_ifs at h
          simp only [Option.some.injEq] at h
          omega
      · rintro ⟨hfound, hnone⟩
        have hrest : lastFit fits (start + 1) rest = some (start + 1 + place) := by
          apply ih.mpr
          constructor
          · simpa using hfound
          · intro later m' hlt hm'
            exact hnone (later + 1) m' (by omega) (by simpa using hm')
        rw [hrest, Option.some_or]
    | zero =>
      cases hlater : lastFit fits (start + 1) rest with
      | some later =>
        have hle := le_lastFit hlater
        constructor
        · intro h
          simp only [Option.some_or, Option.some.injEq] at h
          omega
        · rintro ⟨-, hnone⟩
          obtain ⟨k, rfl⟩ : ∃ k, later = start + 1 + k := ⟨later - (start + 1), by omega⟩
          obtain ⟨⟨m', hm', hfits⟩, -⟩ := ih.mp hlater
          have := hnone (k + 1) m' (by omega) (by simpa using hm')
          simp [hfits] at this
      | none =>
        simp only [Option.none_or]
        constructor
        · intro h
          split_ifs at h with hfits
          constructor
          · exact ⟨m, rfl, hfits⟩
          · intro later m' hlt hm'
            obtain ⟨later, rfl⟩ : ∃ k, later = k + 1 := ⟨later - 1, by omega⟩
            apply lastFit_eq_none hlater
            exact List.mem_of_getElem? (i := later) (by simpa using hm')
        · rintro ⟨⟨m', hm', hfits⟩, -⟩
          simp only [List.getElem?_cons_zero, Option.some.injEq] at hm'
          rw [hm', if_pos hfits, Nat.add_zero]

/-- The message that a run is attached to. -/
def footerPlace (messages : List Message) (run : SessionRun) : Option ℕ :=
  run.endSeq.bind fun endSeq => lastFit (footerFits run endSeq) 0 messages

theorem attachRun_eq (restored : List Message) (run : SessionRun) :
    attachRun restored run =
      match footerPlace restored run with
      | some target => restored.modify target fun m => { m with run := some run }
      | none => restored := by
  unfold attachRun footerPlace
  cases run.endSeq <;> rfl

theorem lastFit_congr {fits : Message → Bool} (hfits : ∀ m, fits m = fits m.withoutRun)
    {messages others : List Message} {start : ℕ}
    (h : messages.map Message.withoutRun = others.map Message.withoutRun) :
    lastFit fits start messages = lastFit fits start others := by
  induction messages generalizing others start with
  | nil =>
    rw [List.map_eq_nil_iff.mp h.symm]
  | cons m rest ih =>
    obtain ⟨m', others, rfl, hm, hrest⟩ := List.map_eq_cons_iff.mp h.symm
    rw [lastFit, lastFit, ih hrest.symm, hfits m, hfits m', hm]

/-- Runs that are attached already do not change the place of a run. -/
theorem footerPlace_congr {messages others : List Message} {run : SessionRun}
    (h : messages.map Message.withoutRun = others.map Message.withoutRun) :
    footerPlace messages run = footerPlace others run := by
  unfold footerPlace
  cases run.endSeq with
  | none => rfl
  | some endSeq => exact lastFit_congr (fun m => rfl) h

theorem footerPlace_eq_some {messages : List Message} {run : SessionRun} {place : ℕ}
    (hown : ∀ m ∈ messages, InRange run m →
      ∀ id, m.sourceRunId = some id → id = [] ∨ id = run.runId) :
    footerPlace messages run = some place ↔ LastInRange run messages place := by
  unfold footerPlace LastInRange
  cases hend : run.endSeq with
  | none =>
    have hnot : ∀ m, ¬InRange run m := by
      rintro m ⟨_, -, _, hsome, -⟩
      rw [hend] at hsome
      cases hsome
    constructor
    · intro h
      cases h
    · rintro ⟨⟨m, -, hm⟩, -⟩
      exact absurd hm (hnot m)
  | some endSeq =>
    have hfits : ∀ k m, messages[k]? = some m → (footerFits run endSeq m = true ↔ InRange run m) :=
      fun k m hm => footerFits_iff hend (hown m (List.mem_of_getElem? hm))
    have hzero : (some place : Option ℕ) = some (0 + place) := by rw [Nat.zero_add]
    show lastFit (footerFits run endSeq) 0 messages = some place ↔ _
    rw [hzero, lastFit_eq_some]
    apply and_congr
    · apply exists_congr
      intro m
      exact and_congr_right fun hm => hfits place m hm
    · apply forall_congr'
      intro later
      apply forall_congr'
      intro m
      apply forall_congr'
      intro _
      apply forall_congr'
      intro hm
      rw [← hfits later m hm, Bool.not_eq_true]

theorem map_withoutRun_modify (messages : List Message) (place : ℕ) (run : SessionRun) :
    (messages.modify place fun m => { m with run := some run }).map Message.withoutRun =
      messages.map Message.withoutRun := by
  apply List.ext_getElem?
  intro i
  rw [List.getElem?_map, List.getElem?_map, List.getElem?_modify]
  cases messages[i]? with
  | none => rfl
  | some m =>
    show some (Message.withoutRun _) = some _
    split_ifs <;> rfl

/-- What the loop keeps for the runs that are done. -/
structure Attached (messages : List Message) (done : List SessionRun) (restored : List Message) :
    Prop where
  frame : restored.map Message.withoutRun = messages.map Message.withoutRun
  runs : ∀ place m run, restored[place]? = some m →
    (m.run = some run ↔ run ∈ done ∧ footerPlace messages run = some place)

/-- A run whose place is not that of another is attached. -/
theorem Attached.attachRun {messages restored : List Message} {done : List SessionRun}
    {run : SessionRun} (h : Attached messages done restored)
    (hother : ∀ other ∈ done, ∀ place, footerPlace messages other = some place →
      footerPlace messages run ≠ some place) :
    Attached messages (run :: done) (attachRun restored run) := by
  rw [attachRun_eq, footerPlace_congr h.frame]
  cases hplace : footerPlace messages run with
  | none =>
    constructor
    · exact h.frame
    · intro place m run' hm
      rw [h.runs place m run' hm, List.mem_cons]
      constructor
      · rintro ⟨hdone, htarget⟩
        exact ⟨Or.inr hdone, htarget⟩
      · rintro ⟨rfl | hdone, htarget⟩
        · rw [hplace] at htarget
          cases htarget
        · exact ⟨hdone, htarget⟩
  | some target =>
    constructor
    · show (restored.modify target _).map _ = _
      rw [map_withoutRun_modify, h.frame]
    · intro place m run' hm
      rw [List.getElem?_modify] at hm
      obtain ⟨m₀, hm₀, hm⟩ := Option.map_eq_some_iff.mp hm
      rw [List.mem_cons]
      by_cases hsame : target = place
      · subst hsame
        rw [if_pos rfl] at hm
        subst hm
        constructor
        · intro hrun
          obtain rfl := Option.some.inj hrun
          exact ⟨Or.inl rfl, hplace⟩
        · rintro ⟨rfl | hdone, htarget⟩
          · rfl
          · exact absurd hplace (hother run' hdone target htarget)
      · rw [if_neg hsame] at hm
        obtain rfl : m₀ = m := hm
        rw [h.runs place m₀ run' hm₀]
        constructor
        · rintro ⟨hdone, htarget⟩
          exact ⟨Or.inr hdone, htarget⟩
        · rintro ⟨rfl | hdone, htarget⟩
          · rw [hplace] at htarget
            exact absurd (Option.some.inj htarget) hsame
          · exact ⟨hdone, htarget⟩

/-- Every run is attached, by induction on the runs. -/
theorem Attached.foldl {messages restored : List Message} {runs done : List SessionRun}
    (h : Attached messages done restored)
    (hpairs : runs.Pairwise fun run other => ∀ place, footerPlace messages run = some place →
      footerPlace messages other ≠ some place)
    (hdone : ∀ other ∈ done, ∀ run ∈ runs, ∀ place, footerPlace messages other = some place →
      footerPlace messages run ≠ some place) :
    Attached messages (runs.reverse ++ done) (runs.foldl Frontend.attachRun restored) := by
  induction runs generalizing restored done with
  | nil => exact h
  | cons run runs ih =>
    obtain ⟨hhead, htail⟩ := List.pairwise_cons.mp hpairs
    have hstep := h.attachRun fun other hother => hdone other hother run (List.mem_cons_self ..)
    have hrest := ih hstep htail fun other hother run' hrun' => by
      rcases List.mem_cons.mp hother with rfl | hother
      · exact hhead run' hrun'
      · exact hdone other hother run' (List.mem_cons_of_mem _ hrun')
    rw [List.reverse_cons, List.append_assoc]
    exact hrest

/-- Runs with disjoint ranges are attached to the last messages of their ranges. -/
theorem attachSessionRuns_attaches {messages : List Message} {runs : List SessionRun}
    (hnew : ∀ m ∈ messages, m.run = none) (hdisjoint : DisjointRanges runs)
    (hown : OfItsRun messages runs) :
    AttachesEachRun runs messages (attachSessionRuns messages runs) := by
  have hperm : (runs.insertionSort fun a b => a.ordinal ≤ b.ordinal).Perm runs :=
    List.perm_insertionSort _ _
  have hsorted : DisjointRanges (runs.insertionSort fun a b => a.ordinal ≤ b.ordinal) :=
    (hperm.pairwise_iff fun h seq hseq hseq' => h seq hseq' hseq).mpr hdisjoint
  have hplace : ∀ run ∈ runs, ∀ place,
      footerPlace messages run = some place ↔ LastInRange run messages place :=
    fun run hrun place => footerPlace_eq_some fun m hm hrange => hown m hm run hrun hrange
  have hpairs : (runs.insertionSort fun a b => a.ordinal ≤ b.ordinal).Pairwise fun run other =>
      ∀ place, footerPlace messages run = some place →
        footerPlace messages other ≠ some place := by
    apply hsorted.imp_of_mem
    intro run other hrun hother hapart place htarget htarget'
    obtain ⟨⟨m, hm, seq, hseq, hcovers⟩, -⟩ :=
      (hplace run (hperm.mem_iff.mp hrun) place).mp htarget
    obtain ⟨⟨m', hm', seq', hseq', hcovers'⟩, -⟩ :=
      (hplace other (hperm.mem_iff.mp hother) place).mp htarget'
    obtain rfl := Option.some.inj (hm.symm.trans hm')
    obtain rfl := Option.some.inj (hseq.symm.trans hseq')
    exact hapart seq hcovers hcovers'
  have hstart : Attached messages [] messages := by
    constructor
    · rfl
    · intro place m run hm
      rw [hnew m (List.mem_of_getElem? hm)]
      simp
  have hall := hstart.foldl hpairs fun _ h => absurd h List.not_mem_nil
  constructor
  · exact hall.frame
  · intro place m run hm
    rw [hall.runs place m run hm, List.append_nil, List.mem_reverse, hperm.mem_iff]
    exact and_congr_right fun hrun => hplace run hrun place

end DeepseekScience.Frontend
