import DeepseekScience.Api.StopRace
import DeepseekScience.Lib.Runs

/-! Stop and completion agree on the outcome in every run in which the flag and the outcome are
not taken by both of them, and in no other run that is acknowledged as stopped. -/
namespace DeepseekScience.Api.Stop

open Agent Runs

/-- An acknowledged Stop hides the completion everywhere, and behind a refused one the client sees
the kind that is stored. -/
structure Agreement (s : System) : Prop where
  stopped : ∀ r, s.cancels r = .answered true →
    (∀ event ∈ s.forwarded, isTerminal event = false) ∧
      s.row = some ⟨"cancelled".toList, "cancelled".toList⟩ ∧ s.extraction = false
  completed : ∀ r, s.cancels r = .answered false → ∀ event ∈ s.forwarded, isTerminal event = true →
    ∃ kind, eventKind event = some kind ∧ s.row.map (·.kind) = some (completeKindName kind)

/-- No request to cancel takes the flag once another outcome is committed, and no outcome is
committed once a request has taken it. -/
def Careful (c : Config) (s : System) (action : Action) : Prop :=
  match action with
  | .cancel r => s.cancels r = .swapping → s.flag = .running → ∀ kind, s.kind = some kind →
      kind = .cancelled
  | .complete .. => action.possible c = true → s.worker = .executing → s.commits c = true →
      s.flag ≠ .cancelRequested
  | _ => True

section
/-! Which runs agree. -/

/-- A run that is to be cancelled has no other outcome. -/
def Undecided (s : System) : Prop :=
  s.flag = .cancelRequested → ∀ kind, s.kind = some kind → kind = .cancelled

variable {c : Config} {s : System}

theorem completeKindName_eq_cancelled {kind : CompleteKind} :
    completeKindName kind = "cancelled".toList ↔ kind = .cancelled := by
  cases kind <;> decide

theorem Sound.agreement (h : Sound s) (hundecided : Undecided s) : Agreement s := by
  constructor
  · intro r hr
    have hflag := h.stopped r (by simp [hr, Cancel.verdict])
    obtain ⟨-, hcommitted⟩ := h.answered r true hr
    obtain ⟨row, hrow⟩ := Option.ne_none_iff_exists'.mp (h.written (Or.inr hcommitted))
    obtain ⟨kind, frameStatus, houtcome, hfields⟩ := h.row row hrow
    have hkind : s.kind = some kind := by simp [System.kind, houtcome]
    have hcancelled := hundecided hflag kind hkind
    refine ⟨?_, ?_, ?_⟩
    · intro event hevent
      rw [← Bool.not_eq_true]
      intro hterminal
      have htold := h.forwarded event hevent hterminal
      exact absurd (htold.2 hcommitted).1 (by simp [hflag])
    · rw [hrow, hfields, hcancelled]
      rfl
    · rw [← Bool.not_eq_true]
      intro hextraction
      have hnatural := h.extraction hextraction
      simp [hkind, hcancelled] at hnatural
  · intro r hr event hevent hterminal
    obtain ⟨-, hcommitted⟩ := h.answered r false hr
    obtain ⟨-, kind, hevent, hkind⟩ := (h.forwarded event hevent hterminal).2 hcommitted
    obtain ⟨row, hrow⟩ := Option.ne_none_iff_exists'.mp (h.written (Or.inr hcommitted))
    obtain ⟨kind', frameStatus, houtcome, hfields⟩ := h.row row hrow
    have hsame : kind' = kind := by simpa [System.kind, houtcome] using hkind
    exact ⟨kind, hevent, by simp [hrow, hfields, hsame]⟩

@[simp] theorem relayStep_outcome (s : System) : s.relayStep.outcome = s.outcome := by
  unfold System.relayStep
  repeat' split
  all_goals rfl

theorem relayStep_flag (s : System) :
    s.relayStep.flag = s.flag ∨ (s.flag = .running ∧ s.relayStep.flag = .terminal) := by
  unfold System.relayStep
  repeat' split
  all_goals simp_all

@[simp] theorem cancelStep_outcome (s : System) (r : ℕ) :
    (s.cancelStep r).outcome = s.outcome := by
  unfold System.cancelStep
  repeat' split
  all_goals rfl

theorem cancelStep_flag (s : System) (r : ℕ) :
    (s.cancelStep r).flag = s.flag ∨
      (s.cancels r = .swapping ∧ s.flag = .running ∧ (s.cancelStep r).flag = .cancelRequested) := by
  unfold System.cancelStep
  repeat' split
  all_goals simp_all [System.setCancel]

@[simp] theorem giveUp_flag (s : System) (r : ℕ) : (s.giveUp r).flag = s.flag := by
  unfold System.giveUp
  split
  · rfl
  · rfl

@[simp] theorem giveUp_outcome (s : System) (r : ℕ) : (s.giveUp r).outcome = s.outcome := by
  unfold System.giveUp
  split
  · rfl
  · rfl

@[simp] theorem workerStep_flag (s : System) (succeeds : Bool) :
    (s.workerStep c succeeds).flag = s.flag := by
  unfold System.workerStep
  repeat' split
  all_goals rfl

@[simp] theorem workerStep_outcome (s : System) (succeeds : Bool) :
    (s.workerStep c succeeds).outcome = s.outcome := by
  unfold System.workerStep
  repeat' split
  all_goals rfl

@[simp] theorem send_flag (s : System) (event : AgentEvent) : (s.send c event).flag = s.flag := by
  unfold System.send
  repeat' split
  all_goals rfl

theorem send_outcome (s : System) (event : AgentEvent) :
    (s.send c event).outcome = s.outcome ∨
      (s.worker = .executing ∧ (s.send c event).outcome = some (.cancelled, .cancelled)) := by
  unfold System.send
  repeat' split
  all_goals simp_all [System.cancelled]

@[simp] theorem observeClosed_flag (s : System) : (s.observeClosed c).flag = s.flag := by
  unfold System.observeClosed
  repeat' split
  all_goals rfl

theorem observeClosed_outcome (s : System) :
    (s.observeClosed c).outcome = s.outcome ∨
      (s.worker = .executing ∧ (s.observeClosed c).outcome = some (.cancelled, .cancelled)) := by
  unfold System.observeClosed
  repeat' split
  all_goals simp_all [System.cancelled]

@[simp] theorem complete_flag (s : System) (outcome : RunOutcome) (frameStatus : FrameStatus)
    (plan : Option Tools.PlanState) :
    (s.complete c outcome frameStatus plan).flag = s.flag := by
  unfold System.complete
  repeat' split
  all_goals rfl

theorem complete_outcome (s : System) (outcome : RunOutcome) (frameStatus : FrameStatus)
    (plan : Option Tools.PlanState) :
    (s.complete c outcome frameStatus plan).outcome = s.outcome ∨
      s.worker = .executing ∧
        ((s.complete c outcome frameStatus plan).outcome = some (.cancelled, .cancelled) ∨
          s.commits c = true ∧
            (s.complete c outcome frameStatus plan).outcome = some (outcome.kind, frameStatus)) := by
  unfold System.complete
  repeat' split
  all_goals simp_all [System.cancelled]

/-- What a step can do to the flag. -/
theorem step_flag (s : System) (action : Action) :
    (step c s action).flag = s.flag ∨
      (s.flag = .running ∧ (step c s action).flag = .terminal) ∨
      ∃ r, action = .cancel r ∧ s.cancels r = .swapping ∧ s.flag = .running ∧
        (step c s action).flag = .cancelRequested := by
  unfold step
  split_ifs
  · cases action with
    | relay =>
      obtain hsame | hmarked := relayStep_flag s
      · exact Or.inl hsame
      · exact Or.inr (Or.inl hmarked)
    | cancel r =>
      obtain hsame | hswapped := cancelStep_flag s r
      · exact Or.inl hsame
      · exact Or.inr (Or.inr ⟨r, rfl, hswapped⟩)
    | _ => simp [System.perform, System.abandon, System.closeSse, System.readSse]
  · simp

/-- What a step can do to the outcome. -/
theorem step_outcome (s : System) (action : Action) :
    (step c s action).outcome = s.outcome ∨
      (s.worker = .executing ∧ (step c s action).outcome = some (.cancelled, .cancelled)) ∨
      ∃ outcome frameStatus plan, action = .complete outcome frameStatus plan ∧
        action.possible c = true ∧ s.worker = .executing ∧ s.commits c = true ∧
        (step c s action).outcome = some (outcome.kind, frameStatus) := by
  unfold step
  split_ifs with hpossible
  · cases action with
    | send event =>
      obtain hsame | hcancelled := send_outcome s event
      · exact Or.inl hsame
      · exact Or.inr (Or.inl hcancelled)
    | observeClosed =>
      obtain hsame | hcancelled := observeClosed_outcome s
      · exact Or.inl hsame
      · exact Or.inr (Or.inl hcancelled)
    | complete outcome frameStatus plan =>
      obtain hsame | ⟨hworker, hcancelled | ⟨hcommits, hcommitted⟩⟩ :=
        complete_outcome s outcome frameStatus plan
      · exact Or.inl hsame
      · exact Or.inr (Or.inl ⟨hworker, hcancelled⟩)
      · exact Or.inr (Or.inr ⟨outcome, frameStatus, plan, rfl, hpossible, hworker, hcommits,
          hcommitted⟩)
    | _ => simp [System.perform, System.abandon, System.closeSse, System.readSse]
  · simp

/-- Careful steps commit nothing but a cancellation where a request has the flag. -/
theorem Undecided.careful (h : Undecided s) {action : Action} (hcareful : Careful c s action) :
    Undecided (step c s action) := by
  intro hflag kind hkind
  obtain houtcome | ⟨-, houtcome⟩ | ⟨outcome, frameStatus, plan, rfl, hpossible, hworker, hcommits,
    houtcome⟩ := step_outcome (c := c) s action
  · have hold : s.kind = some kind := by simpa [System.kind, houtcome] using hkind
    obtain hsame | ⟨-, hmarked⟩ | ⟨r, rfl, hswapping, hrunning, -⟩ := step_flag (c := c) s action
    · exact h (hsame ▸ hflag) kind hold
    · simp [hmarked] at hflag
    · exact hcareful hswapping hrunning kind hold
  · simpa [System.kind, houtcome, eq_comm] using hkind
  · obtain hsame | ⟨-, hmarked⟩ | ⟨r, hcancel, -⟩ :=
      step_flag (c := c) s (.complete outcome frameStatus plan)
    · exact absurd (hsame ▸ hflag) (hcareful hpossible hworker hcommits)
    · simp [hmarked] at hflag
    · simp at hcancel

/-- Another outcome is committed, and a request to cancel has the flag. -/
def Spoiled (s : System) : Prop :=
  s.flag = .cancelRequested ∧ ∃ kind, s.kind = some kind ∧ kind ≠ .cancelled

theorem spoiled_of_careless {action : Action} (hcareless : ¬ Careful c s action) :
    Spoiled (step c s action) := by
  cases action with
  | cancel r =>
    simp only [Careful, Classical.not_imp, not_forall] at hcareless
    obtain ⟨hswapping, hrunning, kind, hkind, hother⟩ := hcareless
    have hstep : step c s (.cancel r) =
        ({ s with flag := .cancelRequested } : System).setCancel r .signalling := by
      simp [step, Action.possible, System.perform, System.cancelStep, hswapping, hrunning]
    rw [hstep]
    exact ⟨rfl, kind, hkind, hother⟩
  | complete outcome frameStatus plan =>
    simp only [Careful, Classical.not_imp, not_not] at hcareless
    obtain ⟨hpossible, hworker, hcommits, hflag⟩ := hcareless
    have hother : outcome.kind ≠ .cancelled := by
      simp only [Action.possible, Bool.and_eq_true, decide_eq_true_eq] at hpossible
      exact hpossible.1
    refine ⟨?_, outcome.kind, ?_, hother⟩
    · simpa [step, hpossible, System.perform] using hflag
    · simp [step, hpossible, System.perform, System.complete, hworker, hcommits, System.kind]
  | _ => exact absurd trivial hcareless

theorem Spoiled.stays (h : Spoiled s) (hsound : Sound s) (action : Action) :
    Spoiled (step c s action) := by
  obtain ⟨hflag, kind, hkind, hother⟩ := h
  have hworker : s.worker ≠ .executing := by
    intro hexecuting
    have hnone := hsound.early (by simp [hexecuting, Worker.early])
    simp [System.kind, hnone] at hkind
  constructor
  · obtain hsame | ⟨hrunning, -⟩ | ⟨r, -, -, hrunning, -⟩ := step_flag (c := c) s action
    · rw [hsame, hflag]
    · simp [hflag] at hrunning
    · simp [hflag] at hrunning
  · obtain houtcome | ⟨hexecuting, -⟩ | ⟨_, _, _, -, -, hexecuting, -⟩ :=
      step_outcome (c := c) s action
    · exact ⟨kind, by rw [System.kind, houtcome]; exact hkind, hother⟩
    · exact absurd hexecuting hworker
    · exact absurd hexecuting hworker

/-- A spoiled run that is acknowledged as stopped is stored as something else. -/
theorem Spoiled.not_agreement (h : Spoiled s) (hsound : Sound s) {r : ℕ}
    (hr : s.cancels r = .answered true) : ¬ Agreement s := by
  intro hagrees
  obtain ⟨-, kind, hkind, hother⟩ := h
  obtain ⟨-, hrow, -⟩ := hagrees.stopped r hr
  obtain ⟨kind', frameStatus, houtcome, hfields⟩ := hsound.row _ hrow
  have hsame : kind' = kind := by simpa [System.kind, houtcome] using hkind
  have hname : completeKindName kind' = "cancelled".toList := by
    simpa using (congrArg RunRow.kind hfields).symm
  exact hother (hsame ▸ completeKindName_eq_cancelled.mp hname)

theorem spoiled_run {actions : List Action} (hsound : Sound s)
    (h : Spoiled s ∨ ¬ AllSteps (step c) (Careful c) s actions) :
    Spoiled (run (step c) s actions) := by
  induction actions generalizing s with
  | nil =>
    obtain h | h := h
    · exact h
    · exact absurd trivial h
  | cons action actions ih =>
    apply ih (hsound.stepped action)
    obtain h | h := h
    · exact Or.inl (h.stays hsound action)
    · by_cases hcareful : Careful c s action
      · exact Or.inr fun hrest => h ⟨hcareful, hrest⟩
      · exact Or.inl (spoiled_of_careless hcareful)

theorem sound_run (c : Config) (actions : List Action) : Sound (run (step c) {} actions) :=
  run_invariant (fun _ action h _ => h.stepped action) Sound.init
    (allSteps_true : AllSteps (step c) (fun _ _ => True) {} actions)

/-- Stop and completion agree all the way through a run of careful steps, and a run that is
acknowledged as stopped agrees only if all of its steps were careful. -/
theorem agreement_iff_careful (c : Config) (actions : List Action) :
    (AllSteps (step c) (Careful c) {} actions → Always (step c) Agreement {} actions) ∧
      ((∃ r, (run (step c) {} actions).cancels r = .answered true) →
        (Agreement (run (step c) {} actions) ↔ AllSteps (step c) (Careful c) {} actions)) := by
  have halways (hcareful : AllSteps (step c) (Careful c) {} actions) :
      Always (step c) Agreement {} actions := by
    have hstep : ∀ s action, Sound s ∧ Undecided s → Careful c s action →
        Sound (step c s action) ∧ Undecided (step c s action) :=
      fun _ action h hstep => ⟨h.1.stepped action, h.2.careful hstep⟩
    exact always_of_guarded hstep (fun _ h => h.1.agreement h.2)
      ⟨Sound.init, by simp [Undecided]⟩ hcareful
  constructor
  · exact halways
  · rintro ⟨r, hr⟩
    constructor
    · intro hagrees
      by_contra hcareless
      exact (spoiled_run Sound.init (Or.inr hcareless)).not_agreement (sound_run c actions) hr
        hagrees
    · exact fun hcareful => (halways hcareful).last

end

section
/-! A Stop that comes behind the completion, and one that comes before it. -/

def sampleConfig : Config where
  llmConfigured := true
  memoryEnabled := true

def sampleOutcome : RunOutcome where
  kind := .natural
  finalText := "done".toList
  usage := {}
  iterations := 1

/-- The Runner completes, a Stop takes the flag before the relay has looked at the event, and the
run is persisted. -/
def lateStop : List Action :=
  [.worker true, .worker true, .complete sampleOutcome .completed none,
    .cancel 0, .cancel 0, .cancel 0, .cancel 0, .relay, .relay,
    .worker true, .worker true, .worker true, .worker true, .cancel 0]

/-- A Stop takes the flag first, and the Runner finds its channel closed. -/
def earlyStop : List Action :=
  [.worker true, .worker true, .cancel 0, .cancel 0, .cancel 0, .cancel 0, .relay, .relay,
    .observeClosed, .worker true, .worker true, .worker true, .worker true, .cancel 0]

theorem lateStop_disagrees :
    (run (step sampleConfig) {} lateStop).cancels 0 = .answered true ∧
      (run (step sampleConfig) {} lateStop).row =
        some ⟨"completed".toList, "natural".toList⟩ ∧
      (run (step sampleConfig) {} lateStop).extraction = true ∧
      ¬ Agreement (run (step sampleConfig) {} lateStop) := by
  have hanswered : (run (step sampleConfig) {} lateStop).cancels 0 = .answered true := rfl
  have hrow : (run (step sampleConfig) {} lateStop).row =
    some ⟨"completed".toList, "natural".toList⟩ := rfl
  refine ⟨hanswered, hrow, rfl, fun hagrees => ?_⟩
  rw [(hagrees.stopped 0 hanswered).2.1] at hrow
  exact absurd hrow (by decide)

theorem earlyStop_agrees :
    (run (step sampleConfig) {} earlyStop).cancels 0 = .answered true ∧
      Agreement (run (step sampleConfig) {} earlyStop) := by
  have hnone {s : System} (h : s.kind = none) : Careful sampleConfig s (.cancel 0) :=
    fun _ _ kind hkind => by simp [h] at hkind
  have hstopped {s : System} (h : s.kind = some .cancelled) : Careful sampleConfig s (.cancel 0) :=
    fun _ _ kind hkind => by simpa [h, eq_comm] using hkind
  have hcareful : AllSteps (step sampleConfig) (Careful sampleConfig) {} earlyStop :=
    ⟨trivial, trivial, hnone rfl, hnone rfl, hnone rfl, hnone rfl, trivial, trivial, trivial,
      trivial, trivial, trivial, trivial, hstopped rfl, trivial⟩
  exact ⟨rfl, ((agreement_iff_careful sampleConfig earlyStop).1 hcareful).last⟩

end
end DeepseekScience.Api.Stop
