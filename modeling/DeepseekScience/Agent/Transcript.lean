import DeepseekScience.Agent.Iteration

/-! Whole runs: the history stays a well-formed tool conversation, each iteration records what
it delivered, and the terminal event agrees with the outcome. -/
namespace DeepseekScience.Agent

open Tools Dsml Exits

section
variable {σ : Type} {I : List ChatMessage → σ → Prop} {b l : Ledger σ} {req : RunRequest σ}
  {setup : RunSetup}

/-- Between two iterations: what was published so far is recorded. -/
def Between (I : List ChatMessage → σ → Prop) (b l : Ledger σ) : Prop :=
  ∃ sent added, l.sent = b.sent ++ sent ∧ l.messages = b.messages ++ added ∧
    l.published = {} ∧ ToolProtocolValid added ∧ Stored (fun _ => I) l ∧ terminalsOf sent = []

/-- The end of a run that began with `b`. -/
def Ended (I : List ChatMessage → σ → Prop) (b : Ledger σ) (o : RunOutcome) (l : Ledger σ) :
    Prop :=
  ∃ sent added, l.sent = b.sent ++ sent ∧ l.messages = b.messages ++ added ∧
    l.published = {} ∧ ToolProtocolValid added ∧ Stored (fun _ => I) l ∧ Terminated o sent

theorem At.between (h : At (fun _ => I) b .settled l) : Between I b l := by
  obtain ⟨sent, added, hsent, hmessages, ⟨hp, hrec⟩, hterm, hstored⟩ := h
  exact ⟨sent, added, hsent, hmessages, hp, hrec.protocol, hstored, hterm⟩

theorem Left.ended {o : RunOutcome} (h : Left (fun _ => I) b o l) : Ended I b o l := by
  obtain ⟨sent, added, hsent, hmessages, ⟨hp, hrec⟩, hstored, hterm⟩ := h
  exact ⟨sent, added, hsent, hmessages, hp, hrec.protocol, hstored, hterm⟩

theorem Terminated.prepend {o : RunOutcome} {sent sent' : List Delivery}
    (hsent : terminalsOf sent = []) (h : Terminated o sent') : Terminated o (sent ++ sent') := by
  rcases h with ⟨hkind, hterm⟩ | ⟨hkind, front, last, rfl, hterm, hlast⟩
  · exact Or.inl ⟨hkind, by rw [terminalsOf_append, hsent, hterm, List.nil_append]⟩
  · refine Or.inr ⟨hkind, sent ++ front, last, (List.append_assoc ..).symm, ?_, hlast⟩
    rw [terminalsOf_append, hsent, hterm, List.nil_append]

theorem Between.ended {m : Ledger σ} {o : RunOutcome} (h : Between I b m) (h' : Ended I m o l) :
    Ended I b o l := by
  obtain ⟨sent, added, hsent, hmessages, -, hvalid, -, hterm⟩ := h
  obtain ⟨sent', added', hsent', hmessages', hp, hvalid', hstored, hterm'⟩ := h'
  refine ⟨sent ++ sent', added ++ added', ?_, ?_, hp, hvalid.append hvalid', hstored,
    hterm'.prepend hterm⟩
  · rw [hsent', hsent, List.append_assoc]
  · rw [hmessages', hmessages, List.append_assoc]

theorem settled_self (hb : b.published = {}) (hstored : Stored (fun _ => I) b) :
    At (fun _ => I) b .settled b := by
  refine ⟨[], [], by simp, by simp, ⟨hb, rfl, fun _ _ _ => ⟨rfl, rfl⟩, ?_⟩, rfl, hstored⟩
  exact fun h => absurd ⟨rfl, rfl, rfl⟩ h

theorem iterationsExhausted_spec (req : RunRequest σ) (setup : RunSetup) (b : Ledger σ) :
    Triple (In (fun _ => I) b .settled) (iterationsExhausted req setup) (fun _ _ => False)
      (Out (fun _ => I) b) :=
  Triple.readKeep fun _ _ => completeWith_spec (by simp) settles_id

/-- A run ends with every published turn recorded, by induction on the remaining iterations. -/
theorem agentLoop_spec (setup : RunSetup) (hI : Durable req fun _ => I) (remaining : ℕ) (b : Ledger σ)
    (hb : b.published = {}) (hstored : Stored (fun _ => I) b) :
    Triple (fun s => s.ledger = b) (agentLoop req setup remaining) (fun _ _ => False)
      (fun o s => Ended I b o s.ledger) := by
  induction remaining generalizing b with
  | zero =>
    refine (iterationsExhausted_spec req setup b).conseq ?_ (fun _ _ => id) fun _ _ => Left.ended
    rintro s rfl
    exact settled_self hb hstored
  | succ remaining ih =>
    refine Triple.seq (M := fun s => Between I b s.ledger)
      ((iteration_spec hI b hb hstored).conseq (fun _ => id) (fun _ _ => At.between)
        fun _ _ => Left.ended) (Triple.of_each fun s hs => ?_)
    have ⟨_, _, _, _, hp, _, hstored', _⟩ := hs
    refine (ih s.ledger hp hstored').conseq ?_ (fun _ _ => id) fun _ _ => hs.ended
    rintro s' rfl
    rfl

/-- A run that is refused at its start changes neither the history nor the store. -/
theorem startRun_refused {session : Session} {ctx : ToolContext} {tx : Channel} {store : σ}
    {s : RunState σ} (h : startRun req session ctx tx store = (false, s)) :
    ∃ last, s.tx.sent = tx.sent ++ [last] ∧ last.IsSilent ∧ last.terminalKind = none ∧
      s.session.messages = session.messages ∧ s.progress.published = {} ∧ s.store = store := by
  unfold startRun at h
  dsimp only at h
  split_ifs at h
  · simp at h
  · obtain ⟨-, rfl⟩ := Prod.mk.inj h
    exact ⟨_, offer_sent .., ⟨rfl, rfl, rfl, rfl⟩, rfl, rfl, rfl, rfl⟩

/-- An announced run has entered the prompt, and nothing else. -/
theorem startRun_accepted {session : Session} {ctx : ToolContext} {tx : Channel} {store : σ}
    {s : RunState σ} (h : startRun req session ctx tx store = (true, s)) :
    ∃ last, s.tx.sent = tx.sent ++ [last] ∧ last.IsSilent ∧ last.terminalKind = none ∧
      s.session.messages = session.messages ++ [ChatMessage.ofUser req.prompt] ∧
      s.progress.published = {} ∧ s.store = store ∧
      s.historyCheckpointCursor = session.messages.length := by
  unfold startRun at h
  dsimp only at h
  split_ifs at h
  · obtain ⟨-, rfl⟩ := Prod.mk.inj h
    exact ⟨_, offer_sent .., ⟨rfl, rfl, rfl, rfl⟩, rfl, rfl, rfl, rfl, rfl⟩
  · simp at h

/-- Every run extends the history by a well-formed conversation, leaves nothing published that
is not recorded, keeps the store in step, and announces its outcome last, or is cancelled. -/
theorem run_ended (hI : Durable req fun _ => I) (session : Session) (ctx : ToolContext)
    (tx : Channel) (store : σ) (hstore : I session.messages store) :
    ∃ sent added, (run req session ctx tx store).2.tx.sent = tx.sent ++ sent ∧
      (run req session ctx tx store).2.session.messages = session.messages ++ added ∧
      (run req session ctx tx store).2.progress.published = {} ∧ ToolProtocolValid added ∧
      (∃ durable, durable <+: session.messages ++ added ∧
        I durable (run req session ctx tx store).2.store) ∧
      Terminated (run req session ctx tx store).1 sent := by
  rcases hstart : startRun req session ctx tx store with ⟨accepted, s⟩
  rw [run, hstart]
  cases accepted with
  | false =>
    obtain ⟨last, hsent, -, hkind, hmessages, hp, hst⟩ := startRun_refused hstart
    refine ⟨[last], [], hsent, by simpa using hmessages, hp, rfl,
      ⟨session.messages, List.prefix_append .., ?_⟩, Or.inl ⟨rfl, by simp [terminalsOf, hkind]⟩⟩
    change I session.messages s.store
    rw [hst]
    exact hstore
  | true =>
    obtain ⟨last, hsent, -, hkind, hmessages, hp, hst, hcursor⟩ := startRun_accepted hstart
    have hstored : Stored (fun _ => I) s.ledger := by
      refine ⟨?_, ?_⟩
      · simp [RunState.ledger, hmessages, hcursor]
      · change I (s.session.messages.take s.historyCheckpointCursor) s.store
        rw [hcursor, hmessages, List.take_left, hst]
        exact hstore
    have hloop := agentLoop_spec (runSetup req session ctx) hI
      (runSetup req session ctx).iterationLimit s.ledger hp hstored s rfl
    dsimp only
    rcases hr : outcome (agentLoop req (runSetup req session ctx)
      (runSetup req session ctx).iterationLimit) s with ⟨o | _, s'⟩
    · rw [hr] at hloop
      obtain ⟨sent, added, hsent', hmessages', hp', hvalid, ⟨hle, hI'⟩, hterm⟩ := hloop
      change s'.tx.sent = s.tx.sent ++ sent at hsent'
      change s'.session.messages = s.session.messages ++ added at hmessages'
      have hall : s'.session.messages =
          session.messages ++ ([ChatMessage.ofUser req.prompt] ++ added) := by
        rw [hmessages', hmessages, List.append_assoc]
      refine ⟨[last] ++ sent, [ChatMessage.ofUser req.prompt] ++ added, ?_, hall, hp', ?_,
        ⟨_, hall ▸ List.take_prefix s'.historyCheckpointCursor s'.session.messages, hI'⟩,
        hterm.prepend (by simp [terminalsOf, hkind])⟩
      · rw [← List.append_assoc, ← hsent]
        exact hsent'
      · exact ToolProtocolValid.append rfl hvalid
    · rw [hr] at hloop
      exact hloop.elim

theorem durable_trivial (req : RunRequest σ) : Durable req fun _ _ _ => True := by
  unfold Durable
  cases req.historyCheckpoint with
  | none => exact fun _ _ _ _ _ => trivial
  | some service =>
    intro _ ms new store state _ _
    rcases service store new state with ⟨_ | _, _⟩ <;> trivial

/-- A run that starts on a well-formed history extends it to a well-formed history, whatever
the provider, the tools, the reviewer, the checkpoints and the receiver do. -/
theorem run_keeps_toolProtocol (req : RunRequest σ) (session : Session) (ctx : ToolContext)
    (tx : Channel) (store : σ) (h : ToolProtocolValid session.messages) :
    session.messages <+: (run req session ctx tx store).2.session.messages ∧
      ToolProtocolValid (run req session ctx tx store).2.session.messages := by
  obtain ⟨sent, added, -, hmessages, -, hvalid, -⟩ :=
    run_ended (I := fun _ _ => True) (durable_trivial req) session ctx tx store trivial
  rw [hmessages]
  exact ⟨List.prefix_append .., h.append hvalid⟩

end

/-- A request without tools, whose prompt states an iteration limit, and whose provider answers
with the given events. -/
def sampleRequest (prompt : Text) (limit : Option ℕ) (json : SerdeJson)
    (events : List StreamEvent) : RunRequest Unit where
  model := "deepseek-chat".toList
  prompt := prompt
  tools := ⟨[], List.Pairwise.nil⟩
  maxIterations := 1
  contextWindow := 128000
  runContext := []
  planMode := false
  memoryBlock := none
  historyCheckpoint := none
  freshFrameId := "frame-2".toList
  parseExplicitIterationLimit := fun text => if text = prompt then limit else none
  microcompact := id
  json := json
  ratios := ⟨fun n => n * 3 / 4, fun n => n * 9 / 10, fun n => n * 7 / 10, fun n => n * 7 / 10⟩
  turns := fun _ =>
    { stream := .ok (events.map .ok)
      callIds := natText
      tasks := fun _ ctx _ => ⟨.withoutResult, ctx⟩ }

def sampleSession (messages : List ChatMessage) : Session where
  id := "session".toList
  frame := { id := "frame".toList, rootFrameId := none }
  messages := messages

/-- An answered call in front of a run. -/
theorem run_keeps_toolProtocol_answeredCall :
    let call := ToolCall.ofFunction "call-1".toList "ls".toList "{}".toList
    let history := [ChatMessage.ofAssistantToolCalls [call],
      ChatMessage.ofTool "call-1".toList "a.txt".toList none]
    let req := sampleRequest "hello".toList none ⟨fun _ => none, fun _ => []⟩
      [.text "hi".toList, .finish none]
    ToolProtocolValid history ∧
      ToolProtocolValid (run req (sampleSession history) {} {} ()).2.session.messages := by
  intro call history req
  have h : ToolProtocolValid history := by decide
  exact ⟨h, (run_keeps_toolProtocol req (sampleSession history) {} {} () h).2⟩

section
variable {σ : Type} {req : RunRequest σ} {setup : RunSetup}

/-! What each iteration records. -/

/-- The states in front of and behind each iteration of the loop. -/
def iterationSpans (req : RunRequest σ) (setup : RunSetup) :
    ℕ → RunState σ → List (RunState σ × RunState σ)
  | 0, _ => []
  | remaining + 1, s =>
    match outcome (iteration req setup) s with
    | (.ok _, s') => (s, s') :: iterationSpans req setup remaining s'
    | (.error _, s') => [(s, s')]

/-- The iterations of a run. -/
def runSpans (req : RunRequest σ) (session : Session) (ctx : ToolContext) (tx : Channel)
    (store : σ) : List (RunState σ × RunState σ) :=
  let (accepted, s) := startRun req session ctx tx store
  let setup := runSetup req session ctx
  if accepted then iterationSpans req setup setup.iterationLimit s else []

/-- What was delivered between two states is what the messages added between them record. -/
def RecordedBetween (before after : RunState σ) : Prop :=
  ∃ sent added, after.tx.sent = before.tx.sent ++ sent ∧
    after.session.messages = before.session.messages ++ added ∧ Recorded sent added

/-- The spans follow each other from the first state to the last; behind the last of them no
draft is delivered and no assistant message is added. -/
def Covers (last : RunState σ) : RunState σ → List (RunState σ × RunState σ) → Prop
  | first, [] => ∃ sent added, last.tx.sent = first.tx.sent ++ sent ∧
      last.session.messages = first.session.messages ++ added ∧ thinkingOf sent = [] ∧
      textOf sent = [] ∧ callsAccepted sent = false ∧ resetSent sent = false ∧
      assistants added = []
  | first, (before, after) :: spans => before = first ∧ Covers last after spans

theorem recordPublished_tx (s : RunState σ) (hidden : Bool) :
    (s.recordPublished hidden).tx = s.tx := by
  unfold RunState.recordPublished
  cases s.progress.publishedMessage <;> rfl

theorem foldl_push_tx (ms : List ChatMessage) (s : RunState σ) :
    (ms.foldl RunState.push s).tx = s.tx := by
  induction ms generalizing s with
  | nil => rfl
  | cons m ms ih => exact ih (s.push m)

theorem cancelled_tx (s : RunState σ) : s.cancelled.tx = s.tx := by
  have hcommit : s.commitCancelled.tx = s.tx :=
    (foldl_push_tx _ _).trans (recordPublished_tx s false)
  unfold RunState.cancelled
  dsimp only
  split_ifs <;> exact hcommit

/-- The exhausted loop offers its terminal event and delivers nothing else. -/
theorem iterationsExhausted_sent (req : RunRequest σ) (setup : RunSetup) (sent : List Delivery) :
    Triple (fun s => s.tx.sent = sent) (iterationsExhausted req setup) (fun _ _ => False)
      (fun _ s => ∃ d : Delivery, d.IsSilent ∧ s.tx.sent = sent ++ [d]) := by
  let M : RunState σ → Prop := fun s => ∃ d : Delivery, d.IsSilent ∧ s.tx.sent = sent ++ [d]
  refine Triple.readKeep fun _ _ => Triple.seq (M := M) (Triple.bind (Q := fun _ => M)
    (Triple.updateGet ?_) fun accepted => Triple.choose (fun _ => Triple.ret fun _ => id)
      fun _ => ?_) ?_
  · rintro s rfl
    exact ⟨_, ⟨rfl, rfl, rfl, rfl⟩, offer_sent ..⟩
  · refine Triple.readKeep fun _ _ => Triple.seq (M := M) (Triple.update ?_)
      (Triple.exit fun _ => id)
    rintro s ⟨d, hd, hs⟩
    exact ⟨d, hd, by rw [cancelled_tx, hs]⟩
  · exact Triple.seq (M := M) (Triple.update fun _ => id) (Triple.exit fun _ => id)

theorem covers_exhausted (s : RunState σ) (hp : s.progress.published = {})
    (hstored : Stored (fun _ _ _ => True) s.ledger) :
    Covers (outcome (iterationsExhausted req setup) s).2 s [] := by
  have hleft := iterationsExhausted_spec req setup s.ledger s
    (settled_self hp hstored)
  have hsent := iterationsExhausted_sent req setup s.tx.sent s rfl
  rcases hr : outcome (iterationsExhausted req setup) s with ⟨o | _, s'⟩
  · rw [hr] at hleft hsent
    obtain ⟨d, hd, hs'⟩ := hsent
    obtain ⟨sent, added, hs, hmessages, ⟨-, hrec⟩, -⟩ := hleft
    have hsd : sent = [d] := List.append_cancel_left (hs.symm.trans hs')
    subst hsd
    have hnone : thinkingOf [d] = [] ∧ textOf [d] = [] ∧ callsAccepted [d] = false := by
      simp [thinkingOf, textOf, callsAccepted, hd.1, hd.2.1, hd.2.2.1]
    have hsilent := hrec.silent hnone.1 hnone.2.1 hnone.2.2
    exact ⟨[d], added, hs', hmessages, hnone.1, hnone.2.1, hnone.2.2, hsilent.2, hsilent.1⟩
  · rw [hr] at hleft
    exact hleft.elim

/-- An iteration begins with nothing published that is not recorded. -/
def Fresh (s : RunState σ) : Prop :=
  s.progress.published = {} ∧ Stored (fun _ _ _ => True) s.ledger

theorem iteration_fresh (req : RunRequest σ) (setup : RunSetup) {s : RunState σ} (h : Fresh s) :
    Ends (fun _ => In (fun _ _ _ => True) s.ledger .settled) (Out (fun _ _ _ => True) s.ledger)
      (outcome (iteration req setup) s) :=
  iteration_spec (durable_trivial req) s.ledger h.1 h.2 s rfl

/-- Every span of the loop is one iteration from a fresh state, and the spans follow each other,
by induction on the iterations left. -/
theorem iterationSpans_spec (req : RunRequest σ) (setup : RunSetup) (remaining : ℕ)
    (s : RunState σ) (h : Fresh s) :
    (∀ span ∈ iterationSpans req setup remaining s,
      Fresh span.1 ∧ span.2 = (outcome (iteration req setup) span.1).2) ∧
      Covers (outcome (agentLoop req setup remaining) s).2 s
        (iterationSpans req setup remaining s) := by
  induction remaining generalizing s with
  | zero => exact ⟨by simp [iterationSpans], covers_exhausted s h.1 h.2⟩
  | succ remaining ih =>
    have hspec := iteration_fresh req setup h
    rw [agentLoop, outcome_bind, iterationSpans]
    rcases hr : outcome (iteration req setup) s with ⟨o | _, s'⟩
    · refine ⟨fun span hspan => ?_, rfl, [], [], by simp, by simp, rfl, rfl, rfl, rfl, rfl⟩
      rw [List.mem_singleton.mp hspan]
      exact ⟨h, by rw [hr]⟩
    · rw [hr] at hspec
      obtain ⟨-, -, -, -, ⟨hp', -⟩, -, hstored'⟩ := hspec
      obtain ⟨hspans, hcovers⟩ := ih s' ⟨hp', hstored'⟩
      refine ⟨fun span hspan => ?_, rfl, hcovers⟩
      rcases List.mem_cons.mp hspan with rfl | hspan
      · exact ⟨h, by rw [hr]⟩
      · exact hspans span hspan

theorem recordedBetween_iteration (req : RunRequest σ) (setup : RunSetup) {s : RunState σ} (h : Fresh s) :
    RecordedBetween s (outcome (iteration req setup) s).2 := by
  have hspec := iteration_fresh req setup h
  rcases hr : outcome (iteration req setup) s with ⟨o | _, s'⟩
  · rw [hr] at hspec
    obtain ⟨sent, added, hsent, hmessages, ⟨-, hrec⟩, -⟩ := hspec
    exact ⟨sent, added, hsent, hmessages, hrec⟩
  · rw [hr] at hspec
    obtain ⟨sent, added, hsent, hmessages, ⟨-, hrec⟩, -⟩ := hspec
    exact ⟨sent, added, hsent, hmessages, hrec⟩

theorem run_state_of_accepted {session : Session} {ctx : ToolContext} {tx : Channel} {store : σ}
    {s : RunState σ} (h : startRun req session ctx tx store = (true, s)) :
    (run req session ctx tx store).2 =
      (outcome (agentLoop req (runSetup req session ctx)
        (runSetup req session ctx).iterationLimit) s).2 := by
  rw [run, h]
  dsimp only
  rcases outcome (agentLoop req (runSetup req session ctx)
    (runSetup req session ctx).iterationLimit) s with ⟨_ | _, _⟩ <;> rfl

theorem fresh_of_accepted {session : Session} {ctx : ToolContext} {tx : Channel} {store : σ}
    {s : RunState σ} (h : startRun req session ctx tx store = (true, s)) : Fresh s := by
  obtain ⟨last, -, -, -, hmessages, hp, -, hcursor⟩ := startRun_accepted h
  refine ⟨hp, ?_, trivial⟩
  simp [RunState.ledger, hmessages, hcursor]

/-- The spans of a run are iterations from fresh states. -/
theorem runSpans_spec {session : Session} {ctx : ToolContext} {tx : Channel} {store : σ}
    {span : RunState σ × RunState σ} (h : span ∈ runSpans req session ctx tx store) :
    Fresh span.1 ∧ span.2 = (outcome (iteration req (runSetup req session ctx)) span.1).2 := by
  rcases hstart : startRun req session ctx tx store with ⟨accepted, s⟩
  rw [runSpans, hstart] at h
  cases accepted with
  | false => simp at h
  | true => exact (iterationSpans_spec _ _ _ s (fresh_of_accepted hstart)).1 span h

end
end DeepseekScience.Agent
