import DeepseekScience.Agent.PlanExecution
import DeepseekScience.Llm.Sse

/-! The usage that a run reports: the counter of the run against the snapshots that its streams
have delivered, and when the reported counts are the sums of the counts that the provider sent. -/
namespace DeepseekScience.Agent

open Tools Dsml Exits

/-! The counter. -/

namespace Meter

def begin (m : Meter) : Meter := { m with iterations := m.iterations + 1, iterationUsage := {} }

/-- A snapshot replaces the one before it in the same iteration. -/
def record (m : Meter) (next : Usage) : Meter where
  usage :=
    { inputTokens :=
        RunProgress.replaceUsage m.usage.inputTokens m.iterationUsage.inputTokens next.inputTokens
      outputTokens :=
        RunProgress.replaceUsage m.usage.outputTokens m.iterationUsage.outputTokens
          next.outputTokens
      cacheHitTokens :=
        RunProgress.replaceUsage m.usage.cacheHitTokens m.iterationUsage.cacheHitTokens
          next.cacheHitTokens
      cacheMissTokens :=
        RunProgress.replaceUsage m.usage.cacheMissTokens m.iterationUsage.cacheMissTokens
          next.cacheMissTokens }
  iterationUsage := next
  iterations := m.iterations

/-- The counter behind iterations that have received the given snapshots. -/
def behind (iterations : List (List Usage)) : Meter :=
  iterations.foldl (fun m usages => usages.foldl record m.begin) ⟨{}, {}, 0⟩

theorem behind_concat (iterations : List (List Usage)) (usages : List Usage) :
    behind (iterations ++ [usages]) = usages.foldl record (behind iterations).begin := by
  rw [behind, List.foldl_append]
  rfl

theorem foldl_record_iterations (usages : List Usage) (m : Meter) :
    (usages.foldl record m).iterations = m.iterations := by
  induction usages generalizing m with
  | nil => rfl
  | cons u usages ih => exact ih (m.record u)

theorem behind_iterations (iterations : List (List Usage)) :
    (behind iterations).iterations = iterations.length := by
  induction iterations using List.reverseRecOn with
  | nil => rfl
  | append_singleton iterations usages ih =>
    rw [behind_concat, foldl_record_iterations, List.length_append]
    exact congrArg (· + 1) ih

end Meter

theorem meter_beginIteration (p : RunProgress) : p.beginIteration.meter = p.meter.begin := rfl

theorem meter_recordUsage (p : RunProgress) (u : Usage) :
    (p.recordUsage u).meter = p.meter.record u := rfl

/-! What the steps of a run leave of the counter. -/

section
variable {σ : Type} {v : Meter} {α : Type} {Q : α → RunState σ → Prop}

/-- The counter, whether or not a batch is in flight. -/
def Counted (v : Meter) (s : RunState σ) : Prop := s.progress.meter = v

/-- The counter, with no batch in flight. -/
def Metered (v : Meter) (s : RunState σ) : Prop :=
  s.progress.published.toolCalls = none ∧ Counted v s

/-- What the run reports is what it has counted. -/
def Spent (v : Meter) (o : RunOutcome) (s : RunState σ) : Prop := o.usage = v.usage ∧ Counted v s

theorem recordPublished_meter (s : RunState σ) (hidden : Bool) :
    (s.recordPublished hidden).progress.meter = s.progress.meter := by
  unfold RunState.recordPublished
  cases s.progress.publishedMessage <;> rfl

theorem usage_of_counted {s : RunState σ} (h : Counted v s) : s.progress.usage = v.usage :=
  congrArg Meter.usage h

theorem metered_steady (v : Meter) : Steady (Metered (σ := σ) v) (Spent v) where
  same := by
    rintro s s' hcore ⟨hcalls, hcount⟩
    have hmeter : s'.progress.meter = s.progress.meter := congrArg StateCore.meter hcore
    exact ⟨(congrArg StateCore.calls hcore).trans hcalls, hmeter.trans hcount⟩
  quiet := fun hs => hs.1
  notice := fun _ hs => hs
  record := fun hidden hs =>
    ⟨recordPublished_calls _ hidden, (recordPublished_meter _ hidden).trans hs.2⟩
  leave := fun _ h₀ husage hs => ⟨husage.trans (usage_of_counted h₀.2), hs.2⟩

/-! Batches. -/

theorem pushAll_meter (ms : List ChatMessage) (s : RunState σ) :
    (ms.foldl RunState.push s).progress.meter = s.progress.meter := by
  rw [pushAll_calls]

theorem Counted.cancelled {s : RunState σ} (h : Counted v s) : Counted v s.cancelled := by
  have hcommit : Counted v s.commitCancelled := by
    unfold Counted RunState.commitCancelled
    rw [pushAll_meter]
    exact (recordPublished_meter s false).trans h
  unfold RunState.cancelled
  dsimp only
  split_ifs
  · exact hcommit
  · exact hcommit

theorem cancel_counted : Triple (Counted v) (cancel : Run σ α) Q (Spent v) := by
  apply Triple.readKeep
  intro s hs
  apply Triple.seq (M := Counted v) (Triple.update fun _ => Counted.cancelled)
  exact Triple.exit fun s' hs' => ⟨usage_of_counted hs, hs'⟩

/-- An update of anything but the progress. -/
theorem update_counted {f : RunState σ → RunState σ} {E : RunOutcome → RunState σ → Prop}
    (hf : ∀ s, (f s).progress = s.progress) :
    Triple (Counted v) (modify f) (fun _ => Counted v) E := by
  apply Triple.update
  intro s hs
  show (f s).progress.meter = v
  rw [hf s]
  exact hs

theorem update_metered {f : RunState σ → RunState σ} {E : RunOutcome → RunState σ → Prop}
    (hf : ∀ s, (f s).progress = s.progress) :
    Triple (Metered v) (modify f) (fun _ => Metered v) E := by
  apply Triple.update
  intro s hs
  unfold Metered Counted
  rw [hf s]
  exact hs

theorem sendOrCancel_counted (event : AgentEvent) :
    Triple (Counted (σ := σ) v) (sendOrCancel event) (fun _ => Counted v) (Spent v) := by
  refine Triple.bind (Q := fun _ => Counted v) (Triple.updateGet fun s hs => hs) ?_
  intro accepted
  exact Triple.choose (fun _ => Triple.ret fun _ => id) fun _ => cancel_counted

theorem selectOrCancel_counted {f : RunState σ → RunState σ}
    (hf : ∀ s, (f s).progress = s.progress) :
    Triple (Counted v) (selectOrCancel f) (fun _ => Counted v) (Spent v) := by
  refine Triple.bind (Q := fun _ => Counted v) (Triple.updateGet fun s hs => hs) ?_
  intro closed
  apply Triple.choose
  · exact fun _ => Triple.seq (update_counted hf) cancel_counted
  · exact fun _ => Triple.ret fun _ => id

variable {req : RunRequest σ} {setup : RunSetup} {iter : IterationSetup}

theorem publishCalls_counted (calls : List ToolCall) :
    Triple (Counted v) (publishCalls req calls) (fun _ => Counted v) (Spent v) :=
  Triple.seq (sendOrCancel_counted _) (Triple.update fun _ hs => hs)

theorem batchResults_counted (calls : List ToolCall) :
    Triple (Counted v) (batchResults req iter calls) (fun _ => Counted v) (Spent v) := by
  unfold batchResults
  cases rejectedBatch req.tools req.planMode iter.planStepUpdatesAllowed calls with
  | some results => exact Triple.ret fun _ => id
  | none =>
    refine Triple.seq (update_counted fun _ => rfl) ?_
    refine Triple.seq (selectOrCancel_counted fun _ => rfl) ?_
    exact Triple.updateGet fun _ hs => hs

theorem supersedeAsk_counted (calls : List ToolCall) (results : List ToolResult) :
    Triple (Counted v) (supersedeAsk req calls results) (fun _ => Counted v) (Spent v) := by
  apply Triple.readKeep
  intro s _
  apply Triple.choose
  · intro _
    exact Triple.seq (M := Counted v) (Triple.update fun _ hs => hs) (Triple.ret fun _ => id)
  · exact fun _ => Triple.ret fun _ => id

theorem runBatch_metered (calls : List ToolCall) :
    Triple (Metered v) (runBatch req iter calls) (fun _ => Metered v) (Spent v) := by
  apply Triple.seq ((publishCalls_counted calls).pre fun _ hs => hs.2)
  apply Triple.bind (batchResults_counted calls)
  intro results
  apply Triple.bind (supersedeAsk_counted calls results)
  intro results
  apply Triple.seq (sendOrCancel_counted _)
  apply Triple.seq (M := Metered v)
  · apply Triple.update
    intro s hs
    unfold Metered Counted RunState.commitResults
    rw [pushAll_calls]
    exact ⟨recordPublished_calls s false, (recordPublished_meter s false).trans hs⟩
  · exact Triple.ret fun _ => id

theorem checkpointBatch_metered :
    Triple (Metered v) (checkpointBatch req) (fun _ => Metered v) (Spent v) := by
  have hkept : Triple (Metered v) (checkpointHistory req) (fun _ => Metered v) (Spent v) := by
    apply Triple.updateGet
    intro s hs
    cases hservice : req.historyCheckpoint with
    | none => exact hs
    | some service =>
      dsimp only
      split_ifs
      · exact hs
      · rcases service s.store (s.session.messages.drop s.historyCheckpointCursor)
          (checkpointState req s) with ⟨_ | _, store'⟩
        · exact hs
        · exact hs
  apply Triple.bind hkept
  intro result
  cases result with
  | error e => exact fail_steady (metered_steady v) _
  | ok _ => exact Triple.update fun _ hs => hs

/-! The gates. -/

theorem pushNotice_metered (text : Text) :
    Triple (Metered (σ := σ) v) (pushNotice text) (fun _ => Metered v) (Spent v) :=
  Triple.update fun _ hs => hs

theorem recordPlanDenial_metered :
    Triple (Metered (σ := σ) v) (recordPlanDenial setup iter) (fun _ => Metered v) (Spent v) := by
  refine Triple.seq (update_metered fun _ => rfl) ?_
  apply Triple.readKeep
  intro s _
  apply Triple.choose
  · exact fun _ => fail_steady (metered_steady v) _
  · intro _
    exact Triple.choose (fun _ => fail_steady (metered_steady v) _)
      fun _ => Triple.ret fun _ => id

theorem emptyResponse_metered :
    Triple (Metered v) (emptyResponse req setup iter) (fun _ => Metered v) (Spent v) := by
  have hsteady := metered_steady (σ := σ) v
  refine Triple.seq (update_metered fun _ => rfl) ?_
  apply Triple.readKeep
  intro s _
  apply Triple.seq (Triple.optional fun _ => recordPlanDenial_metered)
  apply Triple.seq (Triple.optional fun _ => fail_steady hsteady _)
  apply Triple.seq (Triple.optional fun _ => fail_steady hsteady _)
  exact Triple.seq (commit_steady hsteady) (pushNotice_metered _)

/-- A plan that the run ends with is no part of the counter. -/
theorem planIncomplete_metered (plan : Option PlanState) :
    Triple (Metered (σ := σ) v) (planIncomplete setup iter plan) (fun _ => Metered v)
      (Spent v) := by
  have hsteady := metered_steady (σ := σ) v
  refine Triple.seq (update_metered fun _ => rfl) ?_
  apply Triple.seq (Triple.optional fun _ => fail_steady hsteady _)
  apply Triple.seq (hideDraft_steady hsteady _)
  apply Triple.readKeep
  intro s hs
  apply Triple.choose
  · exact fun _ => pushNotice_metered _
  · intro _
    apply Triple.seq (pushNotice_metered _)
    apply Triple.seq (publishPlan_steady hsteady _)
    exact completeWith_steady hsteady fun s' hs' => ⟨usage_of_counted hs.2, hs'.2⟩

theorem completeNaturally_metered :
    Triple (Metered (σ := σ) v) (completeNaturally iter) (fun _ => Metered v) (Spent v) := by
  have hsteady := metered_steady (σ := σ) v
  apply Triple.seq (closedOrCancel_steady hsteady)
  apply Triple.readKeep
  intro s hs
  apply Triple.seq (publishPlan_steady hsteady _)
  apply completeWith_steady hsteady
  intro s' hs'
  exact ⟨usage_of_counted hs.2, (recordPublished_meter s' false).trans hs'.2⟩

theorem terminalBarrier_metered :
    Triple (Metered v) (terminalBarrier req setup iter) (fun _ => Metered v) (Spent v) := by
  have hsteady := metered_steady (σ := σ) v
  apply Triple.seq (closedOrCancel_steady hsteady)
  apply Triple.readKeep
  intro s _
  cases (req.turns iter.n).verdict with
  | none => exact Triple.choose (fun _ => fail_steady hsteady _) fun _ => completeNaturally_metered
  | some verdict =>
    exact Triple.choose (fun _ => completeNaturally_metered) fun _ => veto_steady hsteady verdict

theorem reviewAnswer_metered :
    Triple (Metered v) (reviewAnswer req setup iter) (fun _ => Metered v) (Spent v) := by
  refine Triple.seq (update_metered fun _ => rfl) ?_
  apply Triple.readKeep
  intro s _
  cases s.artifactRepairTraceStart with
  | none => exact terminalBarrier_metered
  | some traceStart =>
    exact Triple.choose (fun _ => terminalBarrier_metered)
      fun _ => repairIncomplete_steady (metered_steady v) _

theorem naturalPath_metered :
    Triple (Metered v) (naturalPath req setup iter) (fun _ => Metered v) (Spent v) := by
  have hsteady := metered_steady (σ := σ) v
  apply Triple.readKeep
  intro s _
  apply Triple.choose (fun _ => emptyResponse_metered)
  intro _
  refine Triple.seq (update_metered fun _ => rfl) ?_
  apply Triple.choose
  · intro _
    apply Triple.seq recordPlanDenial_metered
    exact Triple.seq (commit_steady hsteady) (pushNotice_metered _)
  · intro _
    apply Triple.choose
    · intro _
      apply Triple.seq (closedOrCancel_steady hsteady)
      apply Triple.readKeep
      intro s _
      exact Triple.choose (fun _ => reviewAnswer_metered) fun _ => planIncomplete_metered _
    · exact fun _ => reviewAnswer_metered

theorem toolPath_metered (calls : List ToolCall) :
    Triple (Metered v) (toolPath req setup iter calls) (fun _ => Metered v) (Spent v) := by
  have hsteady := metered_steady (σ := σ) v
  apply Triple.readKeep
  intro s _
  apply Triple.bind (runBatch_metered calls)
  intro results
  apply Triple.seq (M := Metered v)
  · apply Triple.update
    intro s hs
    split_ifs
    · exact hs
    · exact hs
  apply Triple.seq checkpointBatch_metered
  apply Triple.seq (noteToolErrors_steady hsteady results)
  apply Triple.bind (publishPlanChange_steady hsteady _)
  intro published
  refine Triple.seq (update_steady hsteady fun s => by split_ifs <;> rfl) ?_
  apply Triple.seq (awaitPlanApproval_steady hsteady published)
  apply Triple.seq (awaitUserResponse_steady hsteady)
  apply Triple.readKeep
  intro s _
  apply Triple.choose
  · exact fun _ => Triple.seq recordPlanDenial_metered (pushNotice_metered _)
  · exact fun _ => retrievalBreaker_steady hsteady calls

theorem decideTurn_metered (l : StreamState) (turn : ParsedTurn) :
    Triple (Metered v) (decideTurn req setup iter l turn) (fun _ => Metered v) (Spent v) := by
  apply Triple.choose (fun _ => lengthFinish_steady (metered_steady v))
  intro _
  refine Triple.seq (update_metered fun _ => rfl) ?_
  exact Triple.choose (fun _ => naturalPath_metered) fun _ => toolPath_metered _

/-! What ends a run in front of the end of a stream. -/

/-- The run was cancelled, or it failed. -/
def Stopped (o : RunOutcome) : Prop := o.kind = .cancelled ∨ o.kind = .error

/-- The only exits of the program are those of a cancelled or failed run. -/
def Stops (x : Run σ α) : Prop :=
  Triple (fun _ => True) x (fun _ _ => True) fun o _ => Stopped o

namespace Stops

variable {β : Type} {x : Run σ α} {f : α → Run σ β} {c : Prop} [Decidable c]

theorem bind (hx : Stops x) (hf : ∀ a, Stops (f a)) : Stops (x >>= f) := Triple.bind hx hf

theorem ret (a : α) : Stops (pure a : Run σ α) := fun _ _ => trivial

theorem update (g : RunState σ → RunState σ) : Stops (modify g) := fun _ _ => trivial

theorem updateGet (g : RunState σ → α × RunState σ) : Stops (modifyGet g) := fun _ _ => trivial

theorem read {f : RunState σ → Run σ α} (h : ∀ s, Stops (f s)) : Stops (get >>= f) :=
  Triple.readKeep fun s _ => h s

theorem choose {y : Run σ α} (hx : Stops x) (hy : Stops y) : Stops (if c then x else y) :=
  Triple.choose (fun _ => hx) fun _ => hy

theorem optional {x : Run σ Unit} (hx : Stops x) : Stops (onlyIf c x) :=
  Triple.optional fun _ => hx

/-- A program with stopping exits, as an assertion sees it. -/
theorem and {P : RunState σ → Prop} {Q : α → RunState σ → Prop}
    {E : RunOutcome → RunState σ → Prop} (hx : Stops x) (h : Triple P x Q E) :
    Triple P x Q fun o s => Stopped o ∧ E o s :=
  (Triple.both hx h).conseq (fun _ hs => ⟨trivial, hs⟩) (fun _ _ hs => hs.2) fun _ _ => id

end Stops

theorem cancel_stops : Stops (cancel : Run σ α) :=
  Stops.read fun _ => Stops.bind (Stops.update _) fun _ => Triple.exit fun _ _ => Or.inl rfl

theorem sendOrCancel_stops (event : AgentEvent) : Stops (sendOrCancel event : Run σ Unit) :=
  Stops.bind (Stops.updateGet _) fun _ => Stops.choose (Stops.ret _) cancel_stops

theorem closedOrCancel_stops : Stops (closedOrCancel : Run σ Unit) :=
  Stops.bind (Stops.updateGet _) fun _ => Stops.optional cancel_stops

theorem fail_stops (message : Text) : Stops (fail message : Run σ α) :=
  Stops.read fun _ => Stops.bind (sendOrCancel_stops _) fun _ =>
    Stops.bind (Stops.update _) fun _ => Triple.exit fun _ _ => Or.inr rfl

theorem hideDraft_stops (reason : Text) : Stops (hideDraft reason : Run σ Unit) :=
  Stops.bind (Stops.update _) fun _ => sendOrCancel_stops _

theorem failProtocol_stops (message : Text) : Stops (failProtocol message : Run σ α) :=
  Stops.read fun _ => Stops.bind (Stops.optional (hideDraft_stops _)) fun _ => fail_stops _

theorem publishThinking_stops (released : Option Text) :
    Stops (publishThinking released : Run σ Unit) := by
  cases released with
  | none => exact Stops.ret _
  | some text => exact Stops.bind (sendOrCancel_stops _) fun _ => Stops.update _

theorem publishText_stops (released : Option Text) :
    Stops (publishText released : Run σ Unit) := by
  cases released with
  | none => exact Stops.ret _
  | some text => exact Stops.bind (sendOrCancel_stops _) fun _ => Stops.update _

theorem admitDelta_stops (l : StreamState) (added : ℕ) (afterFinish : Text) :
    Stops (admitDelta l added afterFinish : Run σ Unit) :=
  Stops.choose (failProtocol_stops _) (Stops.choose (failProtocol_stops _) (Stops.ret _))

theorem onStreamEvent_stops (l : StreamState) (event : StreamEvent) :
    Stops (onStreamEvent l event : Run σ StreamState) := by
  cases event with
  | thinking t =>
    apply Stops.bind (admitDelta_stops _ _ _)
    intro _
    cases l.pushThinking t with
    | error e => exact failProtocol_stops _
    | ok r => exact Stops.bind (publishThinking_stops _) fun _ => Stops.ret _
  | text t =>
    apply Stops.bind (admitDelta_stops _ _ _)
    intro _
    cases l.pushText t with
    | error e => exact failProtocol_stops _
    | ok r => exact Stops.bind (publishText_stops _) fun _ => Stops.ret _
  | assistantDelta thinking text =>
    apply Stops.bind (admitDelta_stops _ _ _)
    intro _
    cases l.pushDelta thinking text with
    | error e => exact failProtocol_stops _
    | ok r =>
      apply Stops.bind (publishThinking_stops _)
      exact fun _ => Stops.bind (publishText_stops _) fun _ => Stops.ret _
  | toolCallDelta d =>
    apply Stops.choose (failProtocol_stops _)
    cases l.toolAcc.push d with
    | error e => exact failProtocol_stops _
    | ok acc => exact Stops.ret _
  | usage u => exact Stops.bind (Stops.update _) fun _ => Stops.ret _
  | finish reason => exact Stops.choose (failProtocol_stops _) (Stops.ret _)

theorem beginIteration_stops : Stops (beginIteration setup : Run σ IterationSetup) :=
  Stops.bind (Stops.update _) fun _ => Stops.read fun _ =>
    Stops.bind (sendOrCancel_stops _) fun _ => Stops.read fun _ => Stops.ret _

theorem compactHistory_stops : Stops (compactHistory req setup iter) := by
  apply Stops.read
  intro s
  apply Stops.choose _ (Stops.ret _)
  apply Stops.bind _ fun _ => Stops.update _
  exact Stops.bind (Stops.updateGet _) fun _ =>
    Stops.choose (Stops.bind (Stops.update _) fun _ => cancel_stops) (Stops.ret _)

theorem openStream_stops : Stops (openStream req setup iter) := by
  apply Stops.read
  intro s
  apply Stops.bind (Stops.optional (fail_stops _))
  intro _
  apply Stops.bind closedOrCancel_stops
  intro _
  apply Stops.bind (Stops.update _)
  intro _
  cases (req.turns iter.n).stream with
  | error e => exact fail_stops e
  | ok items => exact Stops.ret _

theorem askProvider_stops : Stops (askProvider req setup iter) :=
  Stops.bind (Stops.optional (Stops.update _)) fun _ =>
    Stops.bind compactHistory_stops fun _ => openStream_stops

/-! The stream, the loop and the run. -/

/-- The snapshots among the events of a stream. -/
def usagesOf (items : List (Except Text StreamEvent)) : List Usage :=
  items.filterMap fun
    | .ok (.usage u) => some u
    | _ => none

theorem usagesOf_append (a b : List (Except Text StreamEvent)) :
    usagesOf (a ++ b) = usagesOf a ++ usagesOf b := List.filterMap_append

/-- The snapshots that the stream of an iteration holds. -/
def turnUsages (req : RunRequest σ) (n : ℕ) : List Usage :=
  match (req.turns n).stream with
  | .ok items => usagesOf items
  | .error _ => []

/-- The iterations from a number on have received the snapshots of their streams; the last one a
beginning of them, where the run may have stopped. -/
def Hears {α : Type} (stopped : Prop) (streams : ℕ → List α) : ℕ → List (List α) → Prop
  | _, [] => True
  | n, heard :: rest =>
    heard <+: streams n ∧ (heard ≠ streams n → rest = [] ∧ stopped) ∧
      Hears stopped streams (n + 1) rest

/-- Snapshots that are decoded one by one are heard as they were sent. -/
theorem Hears.of_map {α β : Type} {stopped : Prop} {streams : ℕ → List α} {decode : α → β} {n : ℕ}
    {heard : List (List β)} (h : Hears stopped (fun n => (streams n).map decode) n heard) :
    ∃ sent, Hears stopped streams n sent ∧ heard = sent.map (List.map decode) := by
  induction heard generalizing n with
  | nil => exact ⟨[], trivial, rfl⟩
  | cons first rest ih =>
    obtain ⟨hfirst, hcut, hrest⟩ := h
    obtain ⟨sent, hsent, rfl⟩ := ih hrest
    have htake := List.prefix_iff_eq_take.mp hfirst
    rw [← List.map_take] at htake
    by_cases hfull : first = (streams n).map decode
    · exact ⟨streams n :: sent, ⟨List.prefix_refl _, fun hne => absurd rfl hne, hsent⟩,
        congrArg (· :: sent.map (List.map decode)) hfull⟩
    · obtain ⟨hnil, hstopped⟩ := hcut hfull
      obtain rfl := List.map_eq_nil_iff.mp hnil
      exact ⟨[(streams n).take first.length],
        ⟨List.take_prefix _ _, fun _ => ⟨rfl, hstopped⟩, trivial⟩, congrArg (· :: []) htake⟩

theorem onStreamEvent_metered (l : StreamState) (event : StreamEvent) :
    Triple (Metered (σ := σ) v) (onStreamEvent l event)
      (fun _ => Metered ((usagesOf [.ok event]).foldl Meter.record v)) (Spent v) := by
  cases event with
  | usage u =>
    apply Triple.seq (M := Metered (v.record u))
    · apply Triple.update
      rintro s ⟨hcalls, hcount⟩
      refine ⟨hcalls, ?_⟩
      show (s.progress.recordUsage u).meter = v.record u
      rw [meter_recordUsage, hcount]
    · exact Triple.ret fun _ => id
  | thinking _ | text _ | assistantDelta _ _ | toolCallDelta _ | finish _ =>
    exact onStreamEvent_steady (metered_steady v) l _ fun u hu => by cases hu

/-- What a run that stopped in a stream reports: a beginning of its snapshots. -/
def CutShort (v : Meter) (snapshots : List Usage) (o : RunOutcome) (s : RunState σ) : Prop :=
  ∃ usages, usages <+: snapshots ∧ Stopped o ∧ Spent (usages.foldl Meter.record v) o s

theorem cutShort_at_start {snapshots : List Usage} {x : Run σ α} {P : RunState σ → Prop}
    (hx : Stops x) (h : Triple P x Q (Spent v)) : Triple P x Q (CutShort v snapshots) :=
  (hx.and h).conseq (fun _ => id) (fun _ _ => id) fun _ _ hs => ⟨[], List.nil_prefix, hs⟩

/-- The counter behind a stream has taken all snapshots; behind one that ends the run, those of a
beginning. By induction on the events. -/
theorem consumeStream_metered (l : StreamState) (items : List (Except Text StreamEvent)) :
    Triple (Metered (σ := σ) v) (consumeStream l items)
      (fun _ => Metered ((usagesOf items).foldl Meter.record v))
      (CutShort v (usagesOf items)) := by
  induction items generalizing l v with
  | nil =>
    apply Triple.seq (cutShort_at_start closedOrCancel_stops
      (closedOrCancel_steady (metered_steady v)))
    exact Triple.ret fun _ => id
  | cons item items ih =>
    have hclosed : Triple (Metered (σ := σ) v) closedOrCancel (fun _ => Metered v)
        (CutShort v (usagesOf (item :: items))) :=
      cutShort_at_start closedOrCancel_stops (closedOrCancel_steady (metered_steady v))
    cases item with
    | error e =>
      apply Triple.seq hclosed
      exact cutShort_at_start (fail_stops e) (fail_steady (metered_steady v) e)
    | ok event =>
      apply Triple.seq hclosed
      have hsplit : usagesOf (.ok event :: items) = usagesOf [.ok event] ++ usagesOf items :=
        usagesOf_append [.ok event] items
      apply Triple.bind (cutShort_at_start (onStreamEvent_stops l event)
        (onStreamEvent_metered l event))
      intro l'
      apply (ih l').conseq (fun _ => id)
      · intro _ s hs
        rw [hsplit, List.foldl_append]
        exact hs
      · rintro o s ⟨usages, hbegins, hstopped, hs⟩
        refine ⟨usagesOf [.ok event] ++ usages, ?_, hstopped, ?_⟩
        · rw [hsplit]
          exact (List.prefix_append_right_inj _).mpr hbegins
        · rw [List.foldl_append]
          exact hs

variable {received : List (List Usage)}

/-- An exit of an iteration: it has received a beginning of its snapshots, and all of them unless
the run has stopped. -/
def IterationExit (req : RunRequest σ) (received : List (List Usage)) (o : RunOutcome)
    (s : RunState σ) : Prop :=
  ∃ usages, usages <+: turnUsages req (received.length + 1) ∧
    (usages ≠ turnUsages req (received.length + 1) → Stopped o) ∧
    Spent (Meter.behind (received ++ [usages])) o s

theorem CutShort.exit {o : RunOutcome} {s : RunState σ}
    (h : CutShort (Meter.behind received).begin (turnUsages req (received.length + 1)) o s) :
    IterationExit req received o s := by
  obtain ⟨usages, hbegins, hstopped, hs⟩ := h
  refine ⟨usages, hbegins, fun _ => hstopped, ?_⟩
  rw [Meter.behind_concat]
  exact hs

theorem beginIteration_metered :
    Triple (Metered (σ := σ) (Meter.behind received)) (beginIteration setup)
      (fun iter s => iter.n = received.length + 1 ∧ Metered (Meter.behind received).begin s)
      (Spent (Meter.behind received).begin) := by
  apply Triple.seq (M := Metered (Meter.behind received).begin)
  · apply Triple.update
    rintro s ⟨hcalls, hcount⟩
    refine ⟨hcalls, ?_⟩
    show s.progress.beginIteration.meter = _
    rw [meter_beginIteration, hcount]
  · apply Triple.read
    intro s hs
    have hn : s.progress.iterations = received.length + 1 :=
      (congrArg Meter.iterations hs.2).trans
        (congrArg (· + 1) (Meter.behind_iterations received))
    apply Triple.pre (P := Metered (Meter.behind received).begin)
    · apply Triple.seq (sendOrCancel_steady (metered_steady _) fun _ => rfl)
      exact Triple.readKeep fun _ _ => Triple.ret fun _ hs' => ⟨hn, hs'⟩
    · rintro _ rfl
      exact hs

theorem streamTurn_metered :
    Triple (Metered (σ := σ) v) (streamTurn req setup iter)
      (fun _ => Metered ((turnUsages req iter.n).foldl Meter.record v))
      (CutShort v (turnUsages req iter.n)) := by
  apply Triple.bind (cutShort_at_start askProvider_stops
    (askProvider_steady (metered_steady v)))
  intro items
  apply Triple.assume
  intro hitems
  have husages : turnUsages req iter.n = usagesOf items := by
    unfold turnUsages
    rw [hitems]
  rw [husages]
  exact consumeStream_metered {} items

/-- The states of an iteration, with the snapshots of the iterations before. -/
theorem iteration_metered :
    Triple (Metered (σ := σ) (Meter.behind received)) (iteration req setup)
      (fun _ => Metered (Meter.behind (received ++ [turnUsages req (received.length + 1)])))
      (IterationExit req received) := by
  apply Triple.bind ((cutShort_at_start beginIteration_stops beginIteration_metered).conseq
    (fun _ => id) (fun _ _ => id) fun _ _ => CutShort.exit)
  intro iter
  apply Triple.assume
  intro hn
  have hbehind : Meter.behind (received ++ [turnUsages req iter.n]) =
      (turnUsages req iter.n).foldl Meter.record (Meter.behind received).begin :=
    Meter.behind_concat _ _
  have hall : ∀ o (s : RunState σ), Spent (Meter.behind (received ++ [turnUsages req iter.n])) o s →
      IterationExit req received o s := by
    rw [hn]
    exact fun o s hs => ⟨_, List.prefix_refl _, fun hne => absurd rfl hne, hs⟩
  rw [← hn]
  apply Triple.bind (Q := fun _ => Metered (Meter.behind (received ++ [turnUsages req iter.n])))
  · rw [hbehind]
    apply streamTurn_metered.conseq (fun _ => id) (fun _ _ => id)
    rw [hn]
    exact fun _ _ => CutShort.exit
  intro l
  apply Triple.bind ((settleStream_steady (metered_steady _) l).conseq (fun _ => id)
    (fun _ _ => id) hall)
  intro turn
  apply Triple.assume
  intro _
  exact (decideTurn_metered l turn).conseq (fun _ => id) (fun _ _ => id) hall

/-- The loop, by induction on the iterations left: the further iterations have received their
snapshots, and the run reports what they have left on the counter. -/
theorem agentLoop_metered (remaining : ℕ) (received : List (List Usage)) :
    Triple (Metered (σ := σ) (Meter.behind received)) (agentLoop req setup remaining)
      (fun _ _ => False)
      (fun o s => ∃ more, Hears (Stopped o) (turnUsages req) (received.length + 1) more ∧
        Spent (Meter.behind (received ++ more)) o s) := by
  induction remaining generalizing received with
  | zero =>
    apply Triple.readKeep
    intro s hs
    apply Triple.conseq (completeWith_steady (metered_steady (Meter.behind received)) _)
      (fun _ => id) (fun _ _ => id)
    · intro o s' hs'
      refine ⟨[], trivial, ?_⟩
      rw [List.append_nil]
      exact hs'
    · exact fun s' hs' => ⟨usage_of_counted hs.2, hs'.2⟩
  | succ remaining ih =>
    apply Triple.seq (M := Metered
      (Meter.behind (received ++ [turnUsages req (received.length + 1)])))
    · apply iteration_metered.conseq (fun _ => id) (fun _ _ => id)
      rintro o s ⟨usages, hbegins, hstopped, hs⟩
      exact ⟨[usages], ⟨hbegins, fun hne => ⟨rfl, hstopped hne⟩, trivial⟩, hs⟩
    · apply (ih _).conseq (fun _ => id) (fun _ _ => id)
      rintro o s ⟨more, hmore, hs⟩
      rw [List.length_append, List.length_singleton] at hmore
      refine ⟨turnUsages req (received.length + 1) :: more,
        ⟨List.prefix_refl _, fun hne => absurd rfl hne, hmore⟩, ?_⟩
      rw [List.append_cons]
      exact hs

end

/-- A run reports what its iterations have left on the counter. -/
theorem run_metered {σ : Type} (req : RunRequest σ) (session : Session) (ctx : ToolContext)
    (tx : Channel) (store : σ) :
    ∃ received, Hears (Stopped (run req session ctx tx store).1) (turnUsages req) 1 received ∧
      Spent (Meter.behind received) (run req session ctx tx store).1
        (run req session ctx tx store).2 := by
  rcases hstart : startRun req session ctx tx store with ⟨accepted, s⟩
  have hfresh : Metered (Meter.behind []) s := by
    unfold startRun at hstart
    dsimp only at hstart
    split_ifs at hstart
    · obtain ⟨-, rfl⟩ := Prod.mk.inj hstart
      exact ⟨rfl, rfl⟩
    · obtain ⟨-, rfl⟩ := Prod.mk.inj hstart
      exact ⟨rfl, rfl⟩
  rw [run, hstart]
  cases accepted with
  | false => exact ⟨[], trivial, rfl, hfresh.2⟩
  | true =>
    have hend := @agentLoop_metered σ req (runSetup req session ctx)
      (runSetup req session ctx).iterationLimit [] s hfresh
    dsimp only
    rw [if_pos rfl]
    rcases houtcome : outcome (agentLoop req (runSetup req session ctx)
      (runSetup req session ctx).iterationLimit) s with ⟨o | _, s'⟩
    · rw [houtcome] at hend
      exact hend
    · rw [houtcome] at hend
      exact hend.elim

/-! When the counts are exact. -/

inductive UsageField where
  | inputTokens | outputTokens | cacheHitTokens | cacheMissTokens
  deriving DecidableEq

def countOf (u : Usage) : UsageField → ℕ
  | .inputTokens => u.inputTokens
  | .outputTokens => u.outputTokens
  | .cacheHitTokens => u.cacheHitTokens
  | .cacheMissTokens => u.cacheMissTokens

/-- The counts of a snapshot as the provider has sent them. -/
def sentUsage (v : Json) : Usage :=
  let promptTokens := (v.get "prompt_tokens".toList).asU64.getD 0
  let cacheHitTokens := ((v.get "prompt_cache_hit_tokens".toList).asU64.or
    ((v.get "prompt_tokens_details".toList).get "cached_tokens".toList).asU64).getD 0
  { inputTokens := promptTokens
    outputTokens := (v.get "completion_tokens".toList).asU64.getD 0
    cacheHitTokens := cacheHitTokens
    cacheMissTokens := (v.get "prompt_cache_miss_tokens".toList).asU64.getD
      (if 0 < cacheHitTokens then promptTokens - cacheHitTokens else 0) }

def lastCount (usages : List Usage) (f : UsageField) : ℕ :=
  (usages.getLast?.map fun u => countOf u f).getD 0

/-- The count of the last snapshot of an iteration, as it was sent. -/
def lastSent (iteration : List Json) (f : UsageField) : ℕ := lastCount (iteration.map sentUsage) f

def sumSent (received : List (List Json)) (f : UsageField) : ℕ :=
  (received.map fun iteration => lastSent iteration f).sum

/-- The reported counts are the sums of the last snapshots of the iterations. -/
def IsSum (received : List (List Json)) (usage : Usage) : Prop :=
  ∀ f, countOf usage f = sumSent received f

/-- The last snapshot of every iteration fits the counters, and so does every snapshot on top of
the sums of the iterations before. -/
def Fits (received : List (List Json)) : Prop :=
  ∀ before iteration after, received = before ++ iteration :: after → ∀ f,
    lastSent iteration f ≤ u32Max ∧
      ∀ v ∈ iteration, sumSent before f + countOf (Llm.parseUsage v) f ≤ u32Max

section
variable {f : UsageField} {m : Meter} {usages : List Usage}

theorem countOf_record (m : Meter) (u : Usage) (f : UsageField) :
    countOf (m.record u).usage f =
      min (countOf m.usage f - countOf m.iterationUsage f + countOf u f) u32Max := by
  cases f <;> rfl

theorem countOf_parseUsage_le (v : Json) (f : UsageField) : countOf (Llm.parseUsage v) f ≤ u32Max := by
  have hwrap : ∀ n, Llm.u32Wrap n ≤ u32Max := by
    intro n
    unfold Llm.u32Wrap u32Max
    omega
  cases f <;> exact hwrap _

theorem lastCount_concat (usages : List Usage) (u : Usage) (f : UsageField) :
    lastCount (usages ++ [u]) f = countOf u f := by
  simp [lastCount]

/-- Behind the snapshots of an iteration the counter has the last of them on top of what it had
before, unless a snapshot did not fit; then it has less. By induction from the last snapshot. -/
theorem foldl_record_count (hfresh : countOf m.iterationUsage f = 0)
    (husages : ∀ u ∈ usages, countOf u f ≤ u32Max) :
    let m' := usages.foldl Meter.record m
    countOf m'.iterationUsage f = lastCount usages f ∧
      ∃ base ≤ countOf m.usage f, countOf m'.usage f = base + lastCount usages f ∧
        (base = countOf m.usage f ↔ ∀ u ∈ usages, countOf m.usage f + countOf u f ≤ u32Max) := by
  induction usages using List.reverseRecOn with
  | nil => exact ⟨hfresh, _, le_rfl, rfl, by simp⟩
  | append_singleton usages u ih =>
    obtain ⟨hcurrent, base, hbase, htotal, hexact⟩ :=
      ih fun w hw => husages w (List.mem_append_left _ hw)
    have hu : countOf u f ≤ u32Max := husages u (by simp)
    dsimp only
    rw [List.foldl_append, List.foldl_cons, List.foldl_nil, countOf_record, htotal, hcurrent,
      Nat.add_sub_cancel, lastCount_concat]
    refine ⟨rfl, min (base + countOf u f) u32Max - countOf u f, by omega, by omega, ?_⟩
    simp only [List.forall_mem_append, List.forall_mem_singleton]
    rw [← hexact]
    omega

/-- What holds of every split of a list with one more element. -/
theorem forall_split_concat {α : Type} {xs : List α} {x : α} {P : List α → α → Prop} :
    (∀ before a after, xs ++ [x] = before ++ a :: after → P before a) ↔
      (∀ before a after, xs = before ++ a :: after → P before a) ∧ P xs x := by
  constructor
  · intro h
    refine ⟨fun before a after hxs => h before a (after ++ [x]) ?_, h xs x [] rfl⟩
    rw [hxs, List.append_assoc, List.cons_append]
  · rintro ⟨h, hx⟩ before a after hsplit
    rcases List.eq_nil_or_concat after with rfl | ⟨after, b, rfl⟩
    · obtain ⟨rfl, hlast⟩ := List.append_inj' hsplit rfl
      obtain rfl := List.singleton_inj.mp hlast
      exact hx
    · apply h before a after
      rw [List.concat_eq_append, ← List.cons_append, ← List.append_assoc] at hsplit
      exact (List.append_inj' hsplit rfl).1

theorem sumSent_concat (received : List (List Json)) (iteration : List Json) (f : UsageField) :
    sumSent (received ++ [iteration]) f = sumSent received f + lastSent iteration f := by
  simp [sumSent]

/-- One count never exceeds what was sent, and it is the sum of what was sent exactly when nothing
was cut. By induction from the last iteration. -/
theorem behind_count {received : List (List Json)}
    (hle : ∀ iteration ∈ received,
      lastCount (iteration.map Llm.parseUsage) f ≤ lastSent iteration f) :
    let total := countOf (Meter.behind (received.map (List.map Llm.parseUsage))).usage f
    total ≤ sumSent received f ∧
      (total = sumSent received f ↔
        ∀ before iteration after, received = before ++ iteration :: after →
          lastCount (iteration.map Llm.parseUsage) f = lastSent iteration f ∧
            ∀ v ∈ iteration, sumSent before f + countOf (Llm.parseUsage v) f ≤ u32Max) := by
  induction received using List.reverseRecOn with
  | nil => cases f <;> simp [Meter.behind, sumSent, countOf]
  | append_singleton received iteration ih =>
    obtain ⟨hbound, hexact⟩ := ih fun it hit => hle it (List.mem_append_left _ hit)
    have hlast := hle iteration (by simp)
    have hfresh : countOf (Meter.behind (received.map
        (List.map Llm.parseUsage))).begin.iterationUsage f = 0 := by cases f <;> rfl
    have hparsed : ∀ u ∈ iteration.map Llm.parseUsage, countOf u f ≤ u32Max := by
      intro u hu
      obtain ⟨v, -, rfl⟩ := List.mem_map.mp hu
      exact countOf_parseUsage_le v f
    obtain ⟨-, base, hbase, htotal, hfits⟩ := foldl_record_count hfresh hparsed
    have hbegin : countOf (Meter.behind (received.map (List.map Llm.parseUsage))).begin.usage f =
      countOf (Meter.behind (received.map (List.map Llm.parseUsage))).usage f := rfl
    rw [hbegin] at hbase hfits
    rw [List.forall_mem_map] at hfits
    dsimp only at hbound hexact ⊢
    rw [List.map_append, List.map_singleton, Meter.behind_concat, htotal, sumSent_concat,
      forall_split_concat, ← hexact]
    refine ⟨by omega, ?_⟩
    constructor
    · intro h
      have hkept : base = countOf
          (Meter.behind (received.map (List.map Llm.parseUsage))).usage f := by omega
      have hsum : countOf (Meter.behind (received.map (List.map Llm.parseUsage))).usage f =
          sumSent received f := by omega
      refine ⟨hsum, by omega, ?_⟩
      rw [← hsum]
      exact hfits.mp hkept
    · rintro ⟨hsum, hsame, hall⟩
      rw [← hsum] at hall
      have hkept := hfits.mpr hall
      omega

theorem lastCount_map (decode : Json → Usage) (iteration : List Json) (f : UsageField) :
    lastCount (iteration.map decode) f =
      (iteration.getLast?.map fun v => countOf (decode v) f).getD 0 := by
  rw [lastCount, List.getLast?_map, Option.map_map]
  rfl

/-- A counter of 32 bits for every field that is decoded alone. -/
theorem lastCount_wraps {iteration : List Json} (h : ∀ v ∈ iteration.getLast?,
    countOf (Llm.parseUsage v) f = Llm.u32Wrap (countOf (sentUsage v) f)) :
    lastCount (iteration.map Llm.parseUsage) f = Llm.u32Wrap (lastSent iteration f) := by
  unfold lastSent
  rw [lastCount_map, lastCount_map]
  cases hlast : iteration.getLast? with
  | none => rfl
  | some v => exact h v hlast

/-- Missed tokens that are derived are so from the prompt and the hits. -/
theorem parseUsage_miss {v : Json} (hinput : countOf (sentUsage v) .inputTokens ≤ u32Max)
    (hhit : countOf (sentUsage v) .cacheHitTokens ≤ u32Max) :
    countOf (Llm.parseUsage v) .cacheMissTokens =
      Llm.u32Wrap (countOf (sentUsage v) .cacheMissTokens) := by
  have hkept : ∀ n, n ≤ u32Max → Llm.u32Wrap n = n := by
    intro n hn
    unfold Llm.u32Wrap
    unfold u32Max at hn
    omega
  have hinput' := hkept _ hinput
  have hhit' := hkept _ hhit
  simp only [countOf, sentUsage] at hinput' hhit'
  simp only [countOf, Llm.parseUsage, sentUsage, hinput', hhit']

theorem lastSent_eq_of_mem {iteration : List Json} {v : Json} (h : v ∈ iteration.getLast?)
    (f : UsageField) : lastSent iteration f = countOf (sentUsage v) f := by
  rw [lastSent, lastCount_map, Option.mem_def.mp h]
  rfl

theorem lastCount_wraps_miss {iteration : List Json}
    (hinput : lastSent iteration .inputTokens ≤ u32Max)
    (hhit : lastSent iteration .cacheHitTokens ≤ u32Max) :
    lastCount (iteration.map Llm.parseUsage) .cacheMissTokens =
      Llm.u32Wrap (lastSent iteration .cacheMissTokens) := by
  apply lastCount_wraps
  intro v hv
  rw [lastSent_eq_of_mem hv] at hinput hhit
  exact parseUsage_miss hinput hhit

theorem u32Wrap_le (n : ℕ) : Llm.u32Wrap n ≤ n := Nat.mod_le _ _

theorem u32Wrap_eq_iff {n : ℕ} : Llm.u32Wrap n = n ↔ n ≤ u32Max := by
  unfold Llm.u32Wrap u32Max
  omega

/-- One field of the sums. -/
theorem behind_count_eq_iff {received : List (List Json)} (hwraps : ∀ iteration ∈ received,
    lastCount (iteration.map Llm.parseUsage) f = Llm.u32Wrap (lastSent iteration f)) :
    countOf (Meter.behind (received.map (List.map Llm.parseUsage))).usage f = sumSent received f ↔
      ∀ before iteration after, received = before ++ iteration :: after →
        lastSent iteration f ≤ u32Max ∧
          ∀ v ∈ iteration, sumSent before f + countOf (Llm.parseUsage v) f ≤ u32Max := by
  have hcount := (behind_count fun iteration hmem =>
    (hwraps iteration hmem).trans_le (u32Wrap_le _)).2
  apply hcount.trans
  apply forall_congr'
  intro before
  apply forall_congr'
  intro iteration
  apply forall_congr'
  intro after
  apply imp_congr_right
  intro hsplit
  have hmem : iteration ∈ received := by
    rw [hsplit]
    exact List.mem_append_right _ List.mem_cons_self
  rw [hwraps iteration hmem, u32Wrap_eq_iff]

/-- The fields that are decoded alone. -/
theorem wraps_alone (hf : f ≠ .cacheMissTokens) (iteration : List Json) :
    lastCount (iteration.map Llm.parseUsage) f = Llm.u32Wrap (lastSent iteration f) := by
  apply lastCount_wraps
  intro v _
  cases f with
  | cacheMissTokens => exact absurd rfl hf
  | inputTokens | outputTokens | cacheHitTokens => rfl

/-- The counter has the sums exactly when nothing was cut. -/
theorem isSum_iff_fits {received : List (List Json)} :
    IsSum received (Meter.behind (received.map (List.map Llm.parseUsage))).usage ↔
      Fits received := by
  have hmiss : (∀ iteration ∈ received, lastSent iteration .inputTokens ≤ u32Max ∧
      lastSent iteration .cacheHitTokens ≤ u32Max) → ∀ f, ∀ iteration ∈ received,
      lastCount (iteration.map Llm.parseUsage) f = Llm.u32Wrap (lastSent iteration f) := by
    intro hsmall f iteration hmem
    by_cases hf : f = .cacheMissTokens
    · rw [hf]
      exact lastCount_wraps_miss (hsmall iteration hmem).1 (hsmall iteration hmem).2
    · exact wraps_alone hf iteration
  constructor
  · intro hsum
    have halone : ∀ f, f ≠ .cacheMissTokens → ∀ iteration ∈ received,
        lastSent iteration f ≤ u32Max := by
      intro f hf iteration hmem
      obtain ⟨before, after, hsplit⟩ := List.append_of_mem hmem
      exact ((behind_count_eq_iff fun iteration _ => wraps_alone hf iteration).mp (hsum f) before
        iteration after hsplit).1
    have hwraps := hmiss fun iteration hmem =>
      ⟨halone _ (by decide) iteration hmem, halone _ (by decide) iteration hmem⟩
    intro before iteration after hsplit f
    exact (behind_count_eq_iff (hwraps f)).mp (hsum f) before iteration after hsplit
  · intro hfits f
    have hsmall : ∀ iteration ∈ received, ∀ f, lastSent iteration f ≤ u32Max := by
      intro iteration hmem f
      obtain ⟨before, after, hsplit⟩ := List.append_of_mem hmem
      exact (hfits before iteration after hsplit f).1
    have hwraps := hmiss fun iteration hmem => ⟨hsmall iteration hmem _, hsmall iteration hmem _⟩
    exact (behind_count_eq_iff (hwraps f)).mpr fun before iteration after hsplit =>
      hfits before iteration after hsplit f

end

def manyTokens : Json := .object [("prompt_tokens".toList, .number "4294967296".toList)]

def countedEvents : List StreamEvent :=
  [.usage {}, .text "hi".toList, .finish none]

theorem parseUsage_manyTokens : Llm.parseUsage manyTokens = {} := by decide +kernel

theorem turnUsages_counted (n : ℕ) :
    turnUsages (sampleRequest "hello".toList none ⟨fun _ => none, fun _ => []⟩ countedEvents) n =
      [manyTokens].map Llm.parseUsage := by
  rw [List.map_singleton, parseUsage_manyTokens]
  rfl

def countedRequest : RunRequest Unit :=
  sampleRequest "hello".toList none ⟨fun _ => none, fun _ => []⟩ countedEvents

def countedSetup : RunSetup := runSetup countedRequest (sampleSession []) {}

def countedStart : RunState Unit := (startRun countedRequest (sampleSession []) {} {} ()).2

def countedIteration : IterationSetup := ⟨1, false, false⟩

def countedOpened (requests : List ChatRequest) : RunState Unit :=
  { countedStart with
    tx := (countedStart.tx.offer (.iteration 1)).2
    progress := countedStart.progress.beginIteration
    requests := requests }

def countedAsked : RunState Unit :=
  countedOpened [chatRequest countedRequest countedSetup countedIteration (countedOpened []).session]

def countedAnswer : StreamState where
  finishReason := none
  sawFinish := true
  textGuard := ⟨"hi".toList, .streamingPlain, 2, 2, false, false⟩

def countedConsumed : RunState Unit :=
  (outcome (consumeStream {} (countedEvents.map .ok)) countedAsked).2

def countedSettled : RunState Unit :=
  (outcome (closedOrCancel >>= fun _ => flushTurn ⟨[], [], [], true⟩) countedConsumed).2

def countedDecided : Except RunOutcome Unit × RunState Unit :=
  outcome (decideTurn countedRequest countedSetup countedIteration countedAnswer ⟨[], [], [], true⟩)
    countedSettled

def uncounted : RunOutcome where
  kind := .natural
  finalText := "hi".toList
  usage := {}
  iterations := 1

theorem counted_begins : outcome (beginIteration countedSetup) countedStart =
    (.ok countedIteration, countedOpened []) := by
  obtain ⟨-, hcap⟩ := runSetup_sample "hello".toList none ⟨fun _ => none, fun _ => []⟩ countedEvents
    (sampleSession []) (Or.inl rfl)
  have hbegin : outcome (beginIteration countedSetup) countedStart =
      (.ok ⟨1, countedSetup.userIterationCapActive && (1 == countedSetup.iterationLimit), false⟩,
        countedOpened []) := rfl
  rw [hbegin, show countedSetup.userIterationCapActive = false from hcap]
  rfl

theorem counted_asks : outcome (askProvider countedRequest countedSetup countedIteration)
    (countedOpened []) = (.ok (countedEvents.map .ok), countedAsked) := by
  have hview : viewTokens countedRequest countedSetup countedIteration
      (countedOpened []).session ≤ 2000 := by
    have hschema : toolSchemaTokens countedRequest countedIteration = 0 := by decide
    have hview : buildView countedRequest countedSetup (countedOpened []).session =
        [harnessNotice scienceExecutionPolicy, ChatMessage.ofUser "hello".toList] := rfl
    exact viewTokens_le hschema hview scienceExecutionPolicy_length_le
      userFinalIterationNotice_length_le
  have htrigger : Compact.compactionTriggerTokens countedRequest.ratios
      countedRequest.contextWindow = 96000 := by
    change min (128000 * 3 / 4) 300000 = 96000
    decide
  have hwall : Compact.hardWallTokens countedRequest.ratios
      countedRequest.contextWindow = 115200 := by
    change min (128000 * 9 / 10) 300000 = 115200
    decide
  have hasks := @askProvider_asks _ countedRequest countedSetup countedIteration (countedOpened [])
    (countedEvents.map .ok) rfl rfl
    (by
      rw [Compact.isOverTrigger, htrigger]
      simp only [OfNat.ofNat_ne_zero, if_false, decide_eq_false_iff_not]
      omega)
    (by
      rw [hwall]
      omega) rfl
  exact hasks

theorem counted_consumed : outcome (consumeStream {} (countedEvents.map .ok)) countedAsked =
    (.ok countedAnswer, countedConsumed) := rfl

theorem counted_parsed : parseTurn countedRequest.json (countedRequest.turns 1).callIds
    countedAnswer = .ok ⟨[], [], [], true⟩ := by
  unfold parseTurn
  rw [show countedAnswer.thinkingGuard = {} from rfl, finish_nil,
    finish_of_notMem (g := countedAnswer.textGuard) _ (by decide) (by decide)]
  rfl

theorem counted_settles :
    outcome (settleStream countedRequest countedSetup countedIteration countedAnswer)
      countedConsumed = (.ok ⟨[], [], [], true⟩, countedSettled) := by
  unfold settleStream
  rw [show (countedRequest.turns countedIteration.n).callIds = (countedRequest.turns 1).callIds
    from rfl, counted_parsed]
  rfl

theorem counted_decided : countedDecided.1 = .error uncounted ∧
    countedDecided.2.progress.iterations = 1 := by decide +kernel

end DeepseekScience.Agent
