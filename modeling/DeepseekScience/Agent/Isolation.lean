import DeepseekScience.Agent.Channels
import DeepseekScience.Agent.Transcript
import DeepseekScience.Dsml.RoundTrip

/-! The control plane of one channel cannot leak through the other: behind a `<` nothing is
delivered before both channels have passed the canonical parse, and a turn of textual tool
calls delivers no answer and exactly the reasoning in front of the first `<` of the answer. -/
namespace DeepseekScience.Agent

open Tools Dsml Exits

/-! The channels of one turn. -/

/-- Both complete channels pass the canonical parse, the reasoning as plain text. -/
def Passed (json : SerdeJson) (events : List StreamEvent) : Prop :=
  (∃ t, parseAssistantText json (reasoningOf events) = .ok (.plain t)) ∧
    ∃ r, parseAssistantText json (answerOf events) = .ok r

/-- The answer is parsed as textual tool calls. -/
def CallsTools (json : SerdeJson) (events : List StreamEvent) : Prop :=
  ∃ v calls, parseAssistantText json (answerOf events) = .ok (.toolCalls v calls)

/-- What may be delivered of the events before both channels are parsed. -/
structure Provisional (events : List StreamEvent) (rt rx : Text) : Prop where
  reasoning : rt <+: provisionalReasoning events
  answer : rx <+: provisionalAnswer events
  leading : allWhitespace (plainPrefix (answerOf events)) = true → rx = []

/-- What an iteration may deliver of the events of its stream. -/
structure Isolated (json : SerdeJson) (isUserFinal : Bool) (events : List StreamEvent)
    (rt rx : Text) : Prop where
  rejected : ¬ Passed json events ∨ isUserFinal = true ∧ CallsTools json events →
    rt <+: provisionalReasoning events ∧ rx <+: provisionalAnswer events
  noAnswer : CallsTools json events → rx = []
  noLater : CallsTools json events → rt <+: reasoningBeforeAnswerLt events

/-- A turn of textual tool calls has delivered all the reasoning that predates them. -/
def Flushed (json : SerdeJson) (events : List StreamEvent) (rt : Text) : Prop :=
  CallsTools json events → rt = reasoningBeforeAnswerLt events

section
variable {json : SerdeJson} {isUserFinal : Bool} {events more : List StreamEvent}
  {l : StreamState} {rt rx : Text}

theorem Guarded.exposed (h : Guarded events l rt rx) : Provisional events rt rx :=
  ⟨h.provisional.1, h.provisional.2, fun hws =>
    h.answer.private_leading (h.answer.leading.mpr (by rwa [h.answerText]))⟩

theorem Provisional.shorter {rt' rx' : Text} (h : Provisional events rt rx) (ht : rt' <+: rt)
    (hx : rx' <+: rx) : Provisional events rt' rx' :=
  ⟨ht.trans h.reasoning, hx.trans h.answer, fun hws => by simpa [h.leading hws] using hx⟩

theorem plainPrefix_prefix_append (s t : Text) : plainPrefix s <+: plainPrefix (s ++ t) := by
  by_cases h : '<' ∈ s
  · rw [plainPrefix_append_of_mem h]
  · rw [plainPrefix_append h, plainPrefix_of_notMem h]
    exact List.prefix_append ..

theorem Provisional.append (h : Provisional events rt rx) (more : List StreamEvent) :
    Provisional (events ++ more) rt rx := by
  refine ⟨h.reasoning.trans (upTo_prefix_append _), h.answer.trans (upTo_prefix_append _),
    fun hws => h.leading ?_⟩
  obtain ⟨rest, hrest⟩ := plainPrefix_prefix_append (answerOf events) (answerOf more)
  rw [answerOf_append, ← hrest, allWhitespace_append, Bool.and_eq_true] at hws
  exact hws.1

theorem CallsTools.leading (h : CallsTools json events) :
    allWhitespace (plainPrefix (answerOf events)) = true := by
  obtain ⟨v, calls, h⟩ := h
  exact allWhitespace_plainPrefix_of_toolCalls h

theorem Provisional.isolated (h : Provisional events rt rx) :
    Isolated json isUserFinal events rt rx :=
  ⟨fun _ => ⟨h.reasoning, h.answer⟩, fun hcalls => h.leading hcalls.leading,
    fun _ => h.reasoning.trans (provisionalReasoning_isPrefix events)⟩

/-- A turn without an envelope may deliver everything. -/
theorem isolated_of_plain (hpassed : Passed json events) (hplain : ¬ CallsTools json events)
    (rt rx : Text) : Isolated json isUserFinal events rt rx where
  rejected := fun h => h.elim (absurd hpassed) fun h => absurd h.2 hplain
  noAnswer := fun h => absurd h hplain
  noLater := fun h => absurd h hplain

theorem lt_mem_answerOf (h : CallsTools json events) : '<' ∈ answerOf events := by
  obtain ⟨v, calls, h⟩ := h
  rcases parseAssistantText_cases h with ⟨he, -⟩ | ⟨_, _, _, hfind, -⟩
  · cases he
  · exact List.mem_of_getElem? (findNextVisibleDsmlTag_start hfind)

/-- The cutoff, as an offset, becomes the exact length of what the remainder may release. -/
theorem Guarded.safeThinkingRemainder (h : Guarded events l rt rx)
    (hcalls : CallsTools json events) :
    rt ++ safeThinkingRemainder l (dropBytes l.thinkingGuard.releasedCursor l.thinkingGuard.text) =
      reasoningBeforeAnswerLt events := by
  obtain ⟨s, hs⟩ := h.provisional.1.trans (provisionalReasoning_isPrefix events)
  obtain ⟨tail, htail⟩ : reasoningBeforeAnswerLt events <+: reasoningOf events :=
    upTo_prefix_flatMap fun _ => List.nil_prefix
  have htext : l.thinkingGuard.text = rt ++ (s ++ tail) := by
    rw [h.reasoningText, ← htail, ← hs, List.append_assoc]
  have hcursor := h.reasoning.cursor
  have hremainder : dropBytes l.thinkingGuard.releasedCursor l.thinkingGuard.text = s ++ tail := by
    rw [hcursor, htext, dropBytes_append]
  have hlen : byteLen (reasoningBeforeAnswerLt events) - byteLen rt = byteLen s := by
    rw [← hs, byteLen_append]
    omega
  have hle : byteLen rt ≤ byteLen (reasoningBeforeAnswerLt events) := by
    rw [← hs, byteLen_append]
    omega
  rw [hremainder, Agent.safeThinkingRemainder, h.cutoff, if_pos (lt_mem_answerOf hcalls)]
  simp [hcursor, hle, hlen, hs]

/-- What an accepted parse says about the turn, and what it lets through. -/
theorem Guarded.parseTurn {callIds : ℕ → Text} {turn : ParsedTurn} (h : Guarded events l rt rx)
    (hparse : parseTurn json callIds l = .ok turn) :
    Passed json events ∧
      (turn.bothChannelsPlain = true ∧ ¬ CallsTools json events ∨
        turn.bothChannelsPlain = false ∧ CallsTools json events ∧ turn.finalized ≠ [] ∧
          rt ++ turn.thinkingRemainder = reasoningBeforeAnswerLt events) := by
  unfold Agent.parseTurn at hparse
  cases hthinking : l.thinkingGuard.finish json with
  | error e => simp [hthinking] at hparse
  | ok parsedThinking =>
    cases parsedThinking with
    | toolCalls v calls => simp [hthinking] at hparse
    | plain remainder =>
      have hreasoning : ∃ t, parseAssistantText json (reasoningOf events) = .ok (.plain t) := by
        rw [← h.reasoningText]
        exact finish_plain_iff.mp ⟨remainder, hthinking⟩
      simp only [hthinking] at hparse
      cases hanswer : l.textGuard.finish json with
      | error e => simp [hanswer] at hparse
      | ok parsedText =>
        cases parsedText with
        | plain r =>
          obtain ⟨t, ht⟩ := finish_plain_iff.mp ⟨r, hanswer⟩
          rw [h.answerText] at ht
          refine ⟨⟨hreasoning, _, ht⟩, Or.inl ⟨?_, ?_⟩⟩
          · simp only [hanswer] at hparse
            split at hparse
            · cases hparse
            · injection hparse with hparse
              rw [← hparse]
          · rintro ⟨v, calls, hcalls⟩
            rw [ht] at hcalls
            cases hcalls
        | toolCalls v calls =>
          have ht := finish_toolCalls_iff.mp hanswer
          rw [h.answerText] at ht
          have hcalls : CallsTools json events := ⟨v, calls, ht⟩
          refine ⟨⟨hreasoning, _, ht⟩, Or.inr ?_⟩
          simp only [hanswer] at hparse
          split_ifs at hparse
          split at hparse
          · cases hparse
          · injection hparse with hparse
            rw [← hparse]
            refine ⟨rfl, hcalls, ?_, ?_⟩
            · simpa using (parseAssistantText_toolCalls ht).2
            · have := h.safeThinkingRemainder hcalls
              rwa [← finish_plain_eq hthinking] at this

end

/-! The deliveries of one iteration. -/

/-- The events that a stream yields in front of its first error. -/
def received : List (Except Text StreamEvent) → List StreamEvent
  | .ok event :: items => event :: received items
  | _ => []

section
variable {σ : Type} {b : Ledger σ} {json : SerdeJson} {req : RunRequest σ} {setup : RunSetup}
  {iter : IterationSetup} {l : StreamState} {done events : List StreamEvent}

/-- An assertion about the drafts that were delivered since `b`. -/
def Since (b : Ledger σ) (P : Text → Text → Prop) : StoreInvariant σ := fun d _ _ =>
  ∃ rt rx, d = (thinkingOf b.sent ++ rt, textOf b.sent ++ rx) ∧ P rt rx

theorem Since.imp {P P' : Text → Text → Prop} (h : ∀ rt rx, P rt rx → P' rt rx)
    (d : Text × Text) (ms : List ChatMessage) (store : σ) (hd : Since b P d ms store) :
    Since b P' d ms store := by
  obtain ⟨rt, rx, rfl, hP⟩ := hd
  exact ⟨rt, rx, rfl, h rt rx hP⟩

/-- Publishing what the reasoning guard released. -/
theorem publishReleasedThinking_spec {P R : Text → Text → Prop} (released : Option Text)
    (h : ∀ rt rx, P rt rx → R (rt ++ released.getD []) rx) :
    Triple (In (Since b P) b .drafting) (publishThinking released)
      (fun _ => In (Since b R) b .drafting) (Out (Since b P) b) := by
  refine publishThinking_spec released ?_
  rintro d ms store ⟨rt, rx, rfl, hP⟩
  exact ⟨rt ++ released.getD [], rx, by rw [List.append_assoc], h rt rx hP⟩

theorem publishReleasedText_spec {P R : Text → Text → Prop} (released : Option Text)
    (h : ∀ rt rx, P rt rx → R rt (rx ++ released.getD [])) :
    Triple (In (Since b P) b .drafting) (publishText released)
      (fun _ => In (Since b R) b .drafting) (Out (Since b P) b) := by
  refine publishText_spec released ?_
  rintro d ms store ⟨rt, rx, rfl, hP⟩
  exact ⟨rt, rx ++ released.getD [], by rw [List.append_assoc], h rt rx hP⟩

/-- The deliveries are those of the guards, which have received the events. -/
abbrev Guards (b : Ledger σ) (events : List StreamEvent) (l : StreamState) :
    RunState σ → Prop := In (Since b (Guarded events l)) b .drafting

/-- The run is left with provisional deliveries only. -/
abbrev LeavesProvisional (b : Ledger σ) (events : List StreamEvent) :
    RunOutcome → RunState σ → Prop := Out (Since b (Provisional events)) b

theorem Guards.leaves {α : Type} {x : Run σ α} {P : RunState σ → Prop} {Q : α → RunState σ → Prop}
    (h : Triple P x Q (Out (Since b (Guarded events l)) b)) :
    Triple P x Q (LeavesProvisional b events) :=
  h.conseq (fun _ => id) (fun _ _ => id) fun _ _ hout =>
    hout.imp (Since.imp fun _ _ => Guarded.exposed)

theorem LeavesProvisional.append {o : RunOutcome} {s : RunState σ}
    (h : LeavesProvisional b events o s) (more : List StreamEvent) :
    LeavesProvisional b (events ++ more) o s :=
  h.imp (Since.imp fun _ _ h => h.append more)

/-- One event moves the guards on, or the run is left with provisional deliveries. -/
theorem onStreamEvent_guards (event : StreamEvent) :
    Triple (Guards b done l) (onStreamEvent l event)
      (fun l' => Guards b (done ++ [event]) l') (LeavesProvisional b (done ++ [event])) := by
  have hleave : ∀ {α : Type} {x : Run σ α} {P : RunState σ → Prop} {Q : α → RunState σ → Prop},
      Triple P x Q (Out (Since b (Guarded done l)) b) →
      Triple P x Q (LeavesProvisional b (done ++ [event])) := fun h =>
    (Guards.leaves h).conseq (fun _ => id) (fun _ _ => id) fun _ _ hout => hout.append [event]
  cases event with
  | thinking t =>
    refine Triple.seq (hleave (admitDelta_spec _ _ _)) ?_
    rcases hpush : l.pushThinking t with e | ⟨released, l'⟩
    · exact hleave (failProtocol_spec _)
    · exact Triple.seq (hleave (publishReleasedThinking_spec released fun _ _ h =>
        h.pushThinking hpush)) (Triple.ret fun _ => id)
  | text t =>
    refine Triple.seq (hleave (admitDelta_spec _ _ _)) ?_
    rcases hpush : l.pushText t with e | ⟨released, l'⟩
    · exact hleave (failProtocol_spec _)
    · exact Triple.seq (hleave (publishReleasedText_spec released fun _ _ h =>
        h.pushText hpush)) (Triple.ret fun _ => id)
  | assistantDelta t x =>
    refine Triple.seq (hleave (admitDelta_spec _ _ _)) ?_
    rcases hpush : l.pushDelta t x with e | ⟨releasedT, releasedX, l'⟩
    · exact hleave (failProtocol_spec _)
    · -- Between the two publications, the reasoning is ahead of the answer.
      let P : Text → Text → Prop := fun rt rx =>
        Guarded (done ++ [.assistantDelta t x]) l' rt (rx ++ releasedX.getD [])
      refine Triple.seq (hleave (publishReleasedThinking_spec (R := P) releasedT fun _ _ h =>
        h.pushDelta hpush)) (Triple.seq (Triple.conseq (publishReleasedText_spec releasedX
          fun _ _ h => h) (fun _ => id) (fun _ _ => id) fun _ _ hout => ?_) (Triple.ret fun _ => id))
      exact hout.imp (Since.imp fun rt rx h =>
        h.exposed.shorter (List.prefix_refl rt) (List.prefix_append ..))
  | toolCallDelta d =>
    refine Triple.choose (fun _ => hleave (failProtocol_spec _)) fun _ => ?_
    cases l.toolAcc.push d with
    | error e => exact hleave (failProtocol_spec _)
    | ok acc => exact Triple.ret fun s hs => hs.imp (Since.imp fun _ _ h =>
        h.other rfl rfl ⟨rfl, rfl, rfl⟩)
  | usage u =>
    exact Triple.seq (modify_spec (A := At (Since b (Guarded done l)) b .drafting) fun _ => rfl)
      (Triple.ret fun s hs => In.imp hs (Since.imp fun _ _ h => h.other rfl rfl ⟨rfl, rfl, rfl⟩))
  | finish reason =>
    refine Triple.choose (fun _ => hleave (failProtocol_spec _)) fun _ => Triple.ret fun s hs => ?_
    exact hs.imp (Since.imp fun _ _ h => h.other rfl rfl ⟨rfl, rfl, rfl⟩)

/-- The stream loop, by induction on the items. -/
theorem consumeStream_guards (items : List (Except Text StreamEvent)) :
    Triple (Guards b done l) (consumeStream l items)
      (fun l' => Guards b (done ++ received items) l')
      (LeavesProvisional b (done ++ received items)) := by
  have hclosed : ∀ {done : List StreamEvent} {l : StreamState} (more : List StreamEvent),
      Triple (Guards b done l) closedOrCancel (fun _ => Guards b done l)
        (LeavesProvisional b (done ++ more)) := fun more =>
    (Guards.leaves closed_in).conseq (fun _ => id) (fun _ _ => id) fun _ _ hout => hout.append more
  induction items generalizing l done with
  | nil =>
    refine Triple.seq (hclosed _) (Triple.ret fun s hs => ?_)
    simpa [received] using hs
  | cons item items ih =>
    cases item with
    | error e =>
      refine Triple.seq (hclosed _) ?_
      simpa [received] using Guards.leaves (fail_drafting e)
    | ok event =>
      have hevent : Triple (Guards b done l) (onStreamEvent l event)
          (fun l' => Guards b (done ++ [event]) l')
          (LeavesProvisional b (done ++ [event] ++ received items)) :=
        (onStreamEvent_guards event).conseq (fun _ => id) (fun _ _ => id)
          fun _ _ hout => hout.append (received items)
      have hstep := Triple.bind hevent fun l' => ih (l := l')
      exact Triple.seq (hclosed _) (by simpa [received] using hstep)

/-- From the end of the stream to the published turn: an accepted turn is flushed. -/
theorem settleStream_guards :
    Triple (Guards b events l) (settleStream req setup iter l)
      (fun _ => In (Since b fun rt rx => Isolated req.json iter.isUserFinal events rt rx ∧
        Flushed req.json events rt) b .drafting)
      (Out (Since b (Isolated req.json iter.isUserFinal events)) b) := by
  have hleave : ∀ {α : Type} {x : Run σ α} {P : RunState σ → Prop} {Q : α → RunState σ → Prop},
      Triple P x Q (Out (Since b (Guarded events l)) b) →
      Triple P x Q (Out (Since b (Isolated req.json iter.isUserFinal events)) b) := fun h =>
    h.conseq (fun _ => id) (fun _ _ => id) fun _ _ hout =>
      hout.imp (Since.imp fun _ _ h => h.exposed.isolated)
  refine Triple.seq (hleave (Triple.optional fun _ => fail_drafting _))
    (Triple.seq (hleave closed_in) ?_)
  rcases hparse : parseTurn req.json (req.turns iter.n).callIds l with message | turn
  · exact hleave (failProtocol_spec message)
  refine Triple.seq (hleave (Triple.stopIf fun _ => failInvalidatedCandidate_spec _ _))
    (Triple.assume fun hallowed => Triple.seq (hleave closed_in) (Triple.of_each fun s hs => ?_))
  have ⟨_, _, _, _, _, _, _, rt, rx, _, hguarded⟩ := hs
  obtain ⟨hpassed, ⟨hplain, hnone⟩ | ⟨hcalled, hcalls, hne, -⟩⟩ := hguarded.parseTurn hparse
  · have hany : ∀ rt rx, True → Isolated req.json iter.isUserFinal events rt rx :=
      fun rt rx _ => isolated_of_plain hpassed hnone rt rx
    have hflush : Triple (In (Since b fun _ _ => True) b .drafting) (flushTurn turn)
        (fun _ => In (Since b fun _ _ => True) b .drafting) (Out (Since b fun _ _ => True) b) :=
      Triple.seq (publishReleasedThinking_spec _ fun _ _ => id)
        (publishReleasedText_spec _ fun _ _ => id)
    refine Triple.seq (hflush.conseq ?_ (fun _ _ => id) fun _ _ hout => hout.imp (Since.imp hany))
      (Triple.ret fun s hs => hs.imp (Since.imp fun rt rx h =>
        ⟨hany rt rx h, fun hcalls => absurd hcalls hnone⟩))
    rintro s' rfl
    exact hs.imp (Since.imp fun _ _ _ => trivial)
  · have hended : ∀ rt rx, rt = reasoningBeforeAnswerLt events ∧ rx = [] →
        Isolated req.json iter.isUserFinal events rt rx ∧ Flushed req.json events rt := by
      rintro rt rx ⟨rfl, rfl⟩
      refine ⟨⟨?_, fun _ => rfl, fun _ => List.prefix_refl _⟩, fun _ => rfl⟩
      rintro (h | ⟨hfinal, -⟩)
      · exact absurd hpassed h
      · exact absurd (by simp [hfinal, hne]) hallowed
    let All : Text → Text → Prop := fun rt rx => rt = reasoningBeforeAnswerLt events ∧ rx = []
    have hflush : Triple (Guards b events l) (flushTurn turn)
        (fun _ => In (Since b All) b .drafting) (Out (Since b (Guarded events l)) b) := by
      refine Triple.seq (publishReleasedThinking_spec (R := All) _ fun rt rx h => ?_) ?_
      · obtain ⟨-, ⟨-, hnone⟩ | ⟨-, -, -, heq⟩⟩ := h.parseTurn hparse
        · exact absurd hcalls hnone
        · exact ⟨by rw [nonempty_getD, heq], h.exposed.leading hcalls.leading⟩
      · rw [hcalled]
        exact Triple.ret fun _ => id
    refine Triple.seq ((hleave hflush).pre ?_) (Triple.ret fun s hs => hs.imp (Since.imp hended))
    rintro s' rfl
    exact hs

end

/-! The iteration. -/

section
variable {σ : Type} (req : RunRequest σ) (setup : RunSetup)

/-- An iteration up to the opened stream. -/
def openTurn : Run σ (IterationSetup × List (Except Text StreamEvent)) := do
  let iter ← beginIteration setup
  let items ← askProvider req setup iter
  pure (iter, items)

/-- From the opened stream to the published turn. -/
def readTurn (iter : IterationSetup) (items : List (Except Text StreamEvent)) :
    Run σ (StreamState × ParsedTurn) := do
  let l ← consumeStream {} items
  let turn ← settleStream req setup iter l
  pure (l, turn)

theorem iteration_eq : iteration req setup =
    (do
      let (iter, items) ← openTurn req setup
      let (l, turn) ← readTurn req setup iter items
      decideTurn req setup iter l turn) := by
  simp only [iteration, openTurn, readTurn, streamTurn, bind_assoc, pure_bind]

/-- What was offered to the client between two states. -/
def deliveredBetween (before after : RunState σ) : List Delivery :=
  after.tx.sent.drop before.tx.sent.length

/-- The iteration reaches its decision gates: the stream ended, and the turn was accepted. -/
def TurnAccepted (iter : IterationSetup) (items : List (Except Text StreamEvent))
    (opened : RunState σ) : Prop :=
  ∃ parsed settled, outcome (readTurn req setup iter items) opened = (.ok parsed, settled)

/-- The stream of an iteration up to its last event: deltas of the two channels, and one `Finish`
event. -/
structure Undisturbed (json : SerdeJson) (iter : IterationSetup)
    (items : List (Except Text StreamEvent)) (opened : RunState σ) : Prop where
  /-- The receiver never closes. -/
  stays : opened.tx.openFor = none
  stream : ∃ (deltas : List StreamEvent) (reason : Option Text),
    (∀ e ∈ deltas, e.isDelta = true) ∧ items = deltas.map .ok ++ [.ok (.finish reason)]
  fits : byteLen (reasoningOf (received items)) + byteLen (answerOf (received items)) ≤
    maxAssistantTextBytes
  passed : Passed json (received items)
  notFinal : iter.isUserFinal = false

/-- What the iteration from `before` to `after` delivers, when it has opened the stream `items` in
the state `opened`. -/
structure TurnIsolated (iter : IterationSetup) (items : List (Except Text StreamEvent))
    (before opened after : RunState σ) : Prop where
  provider : (req.turns iter.n).stream = .ok items
  streamed :
    let loopEnd := (outcome (consumeStream {} items) opened).2
    Provisional (received items) (thinkingOf (deliveredBetween before loopEnd))
      (textOf (deliveredBetween before loopEnd))
  isolated : Isolated req.json iter.isUserFinal (received items)
    (thinkingOf (deliveredBetween before after)) (textOf (deliveredBetween before after))
  flushed : TurnAccepted req setup iter items opened →
    Flushed req.json (received items) (thinkingOf (deliveredBetween before after))
  accepted : Undisturbed req.json iter items opened → TurnAccepted req setup iter items opened

end

section
variable {σ : Type} {b : Ledger σ} {req : RunRequest σ} {setup : RunSetup} {iter : IterationSetup}
  {P : Text → Text → Prop}

theorem Stored.since {l : Ledger σ} {sent : List Delivery} (h : Stored (Since b P) l)
    (hsent : l.sent = b.sent ++ sent) : P (thinkingOf sent) (textOf sent) := by
  obtain ⟨-, rt, rx, hdrafts, hP⟩ := h
  rw [hsent, draftsOf, thinkingOf, textOf, List.flatMap_append, List.flatMap_append,
    Prod.mk.injEq] at hdrafts
  obtain ⟨ht, hx⟩ := hdrafts
  rwa [thinkingOf, textOf, List.append_cancel_left ht, List.append_cancel_left hx]

theorem In.delivered {before s : RunState σ} {phase : Phase}
    (h : In (Since before.ledger P) before.ledger phase s) :
    P (thinkingOf (deliveredBetween before s)) (textOf (deliveredBetween before s)) := by
  obtain ⟨sent, -, hsent, -, -, -, hstored⟩ := h
  have hnew : deliveredBetween before s = sent :=
    (congrArg (List.drop _) hsent).trans List.drop_left
  rw [hnew]
  exact hstored.since hsent

theorem Out.delivered {before s : RunState σ} {o : RunOutcome}
    (h : Out (Since before.ledger P) before.ledger o s) :
    P (thinkingOf (deliveredBetween before s)) (textOf (deliveredBetween before s)) := by
  obtain ⟨sent, -, hsent, -, -, hstored, -⟩ := h
  have hnew : deliveredBetween before s = sent :=
    (congrArg (List.drop _) hsent).trans List.drop_left
  rw [hnew]
  exact hstored.since hsent

/-- On every way out, the assertion is about what was offered in the meantime. -/
theorem delivered_of_ends {α : Type} {x : Run σ α} {before s : RunState σ} {phase : Phase}
    (h : Ends (fun _ => In (Since before.ledger P) before.ledger phase)
      (Out (Since before.ledger P) before.ledger) (outcome x s)) :
    P (thinkingOf (deliveredBetween before (outcome x s).2))
      (textOf (deliveredBetween before (outcome x s).2)) := by
  rcases hr : outcome x s with ⟨o | a, s'⟩
  · rw [hr] at h
    exact Out.delivered h
  · rw [hr] at h
    exact In.delivered h

theorem durable_since (req : RunRequest σ) (b : Ledger σ) (P : Text → Text → Prop) :
    Durable req (Since b P) := by
  unfold Durable
  cases req.historyCheckpoint with
  | none => exact fun _ _ _ _ h => h
  | some service =>
    intro _ ms new store state _ h
    rcases service store new state with ⟨_ | _, _⟩ <;> exact h

/-- Nothing is delivered before the stream is open. -/
theorem openTurn_spec (req : RunRequest σ) (setup : RunSetup) (hb : b.published = {}) (hstored : Stored (fun _ _ _ => True) b) :
    Triple (fun s => s.ledger = b) (openTurn req setup)
      (fun _ => In (Since b fun rt rx => rt = [] ∧ rx = []) b .drafting)
      (Out (Since b fun rt rx => rt = [] ∧ rx = []) b) := by
  have hnone : Stored (Since b fun rt rx => rt = [] ∧ rx = []) b :=
    ⟨hstored.1, [], [], by simp [draftsOf], rfl, rfl⟩
  exact Triple.bind (beginIteration_spec b hb hnone) fun iter =>
    Triple.bind askProvider_spec fun items => Triple.ret fun _ => id

/-- A program that ends with an exit has no result. -/
theorem fail_exits {α : Type} {Q : α → RunState σ → Prop} {A : RunState σ → Prop}
    (message : Text) : Triple A (fail message : Run σ α) Q fun _ _ => True :=
  Triple.readKeep fun _ _ => Triple.seq (M := fun _ => True) (Triple.any)
    (Triple.seq (M := fun _ => True) Triple.any (Triple.exit fun _ => id))

/-- The opened stream is the one that the provider gives to the iteration. -/
theorem openTurn_provider (req : RunRequest σ) (setup : RunSetup) :
    Triple (fun _ => True) (openTurn req setup)
      (fun turn _ => (req.turns turn.1.n).stream = .ok turn.2) fun _ _ => True := by
  refine Triple.bind Triple.any fun iter => ?_
  have hopen : Triple (fun _ => True) (openStream req setup iter)
      (fun items _ => (req.turns iter.n).stream = .ok items) fun _ _ => True := by
    refine Triple.readKeep fun s _ => Triple.seq (M := fun _ => True) Triple.any
      (Triple.seq (M := fun _ => True) Triple.any (Triple.seq (M := fun _ => True) Triple.any ?_))
    rcases hstream : (req.turns iter.n).stream with e | items
    · exact fail_exits e
    · exact Triple.ret fun _ _ => rfl
  exact Triple.bind (Triple.seq (M := fun _ => True) Triple.any
    (Triple.seq (M := fun _ => True) Triple.any hopen)) fun items => Triple.ret fun _ => id

theorem consumeStream_provisional (items : List (Except Text StreamEvent)) :
    Triple (Guards b [] {}) (consumeStream {} items)
      (fun _ => In (Since b (Provisional (received items))) b .drafting)
      (LeavesProvisional b (received items)) :=
  (consumeStream_guards items).post fun _ _ h => h.imp (Since.imp fun _ _ h => h.exposed)

theorem readTurn_spec (req : RunRequest σ) (setup : RunSetup) (iter : IterationSetup)
    (items : List (Except Text StreamEvent)) :
    Triple (Guards b [] {}) (readTurn req setup iter items)
      (fun _ => In (Since b fun rt rx => Isolated req.json iter.isUserFinal (received items) rt rx ∧
        Flushed req.json (received items) rt) b .drafting)
      (Out (Since b (Isolated req.json iter.isUserFinal (received items))) b) := by
  refine Triple.bind ((consumeStream_guards items).conseq (fun _ => id) (fun _ _ => id)
    fun _ _ hout => ?_) fun l => Triple.bind settleStream_guards fun turn => Triple.ret fun _ => id
  exact Out.imp hout (Since.imp fun _ _ h => h.isolated)

end

/-! A client that stays. -/

section
variable {σ : Type} {req : RunRequest σ} {setup : RunSetup} {iter : IterationSetup}
  {E : RunOutcome → RunState σ → Prop} {done : List StreamEvent} {l : StreamState}

/-- The receiver of the run never closes. -/
def Attended (s : RunState σ) : Prop := s.tx.openFor = none

theorem offer_attended {tx : Channel} (h : tx.openFor = none) (event : AgentEvent) :
    (tx.offer event).1 = true ∧ (tx.offer event).2.openFor = none := by
  simp [Channel.offer, Channel.poll, h]

theorem sendOrCancel_attended (event : AgentEvent) :
    Triple (Attended (σ := σ)) (sendOrCancel event) (fun _ => Attended) E := by
  refine Triple.bind (Q := fun accepted s => accepted = true ∧ Attended s)
    (Triple.updateGet fun s hs => offer_attended hs event) fun accepted =>
      Triple.assume fun h => Triple.choose (fun _ => Triple.ret fun _ => id) fun hn => absurd h hn

theorem closedOrCancel_attended : Triple (Attended (σ := σ)) closedOrCancel (fun _ => Attended) E := by
  refine Triple.bind (Q := fun closed s => closed = false ∧ Attended s)
    (Triple.updateGet fun s hs => ?_) fun closed =>
      Triple.assume fun h => Triple.optional fun hc => absurd hc (by simp [h])
  simp only [Attended] at hs ⊢
  simp [Channel.poll, hs]

theorem publishThinking_attended (released : Option Text) :
    Triple (Attended (σ := σ)) (publishThinking released) (fun _ => Attended) E := by
  cases released with
  | none => exact Triple.ret fun _ => id
  | some t => exact Triple.seq (sendOrCancel_attended _) (Triple.update fun _ => id)

theorem publishText_attended (released : Option Text) :
    Triple (Attended (σ := σ)) (publishText released) (fun _ => Attended) E := by
  cases released with
  | none => exact Triple.ret fun _ => id
  | some t => exact Triple.seq (sendOrCancel_attended _) (Triple.update fun _ => id)

/-- The loop has received deltas only. -/
structure Collecting (done : List StreamEvent) (l : StreamState) : Prop where
  guarded : ∃ rt rx, Guarded done l rt rx
  noTools : l.toolAcc = {}

theorem Collecting.bufferedLen (h : Collecting done l) :
    l.bufferedLen = byteLen (reasoningOf done) + byteLen (answerOf done) := by
  obtain ⟨rt, rx, hg⟩ := h.guarded
  rw [StreamState.bufferedLen, IncrementalAssistantTextGuard.bufferedLen,
    IncrementalAssistantTextGuard.bufferedLen, hg.reasoningText, hg.answerText]

/-- The rest of the loop state is the same. -/
def SameRest (l l' : StreamState) : Prop :=
  l'.toolAcc = l.toolAcc ∧ l'.sawFinish = l.sawFinish

/-- A push within the size limit succeeds. -/
theorem push_fits {g : IncrementalAssistantTextGuard} {chunk : Text}
    (h : byteLen g.text + byteLen chunk ≤ maxAssistantTextBytes) :
    ∃ out g', g.push chunk = .ok (out, g') :=
  ⟨_, _, by rw [IncrementalAssistantTextGuard.push, if_neg (by omega)]⟩

theorem pushThinking_fits {t : Text}
    (h : byteLen l.thinkingGuard.text + byteLen t ≤ maxAssistantTextBytes) :
    ∃ out l', l.pushThinking t = .ok (out, l') ∧ SameRest l l' := by
  obtain ⟨out, g, hpush⟩ := push_fits h
  rw [StreamState.pushThinking, hpush]
  exact ⟨out, _, rfl, rfl, rfl⟩

theorem pushText_fits {x : Text}
    (h : byteLen l.textGuard.text + byteLen x ≤ maxAssistantTextBytes) :
    ∃ out l', l.pushText x = .ok (out, l') ∧ SameRest l l' := by
  obtain ⟨out, g, hpush⟩ := push_fits h
  rw [StreamState.pushText, hpush]
  exact ⟨out, _, rfl, rfl, rfl⟩

theorem syncFrozen_sameRest (l : StreamState) : SameRest l l.syncFrozen := by
  unfold StreamState.syncFrozen
  split_ifs <;> exact ⟨rfl, rfl⟩

theorem pushDelta_fits {t x : Text}
    (ht : byteLen l.thinkingGuard.text + byteLen t ≤ maxAssistantTextBytes)
    (hx : byteLen l.textGuard.text + byteLen x ≤ maxAssistantTextBytes) :
    ∃ outT outX l', l.pushDelta t x = .ok (outT, outX, l') ∧ SameRest l l' := by
  have hsame : ∀ (g : IncrementalAssistantTextGuard) (frozen : Bool),
      (if frozen then g.freezePublication else g).text = g.text := by
    intro g frozen
    split_ifs <;> rfl
  obtain ⟨outT, gT, hpushT⟩ := push_fits (g := if decide ('<' ∈ t) || decide ('<' ∈ x) then
    l.thinkingGuard.freezePublication else l.thinkingGuard) (by rwa [hsame])
  obtain ⟨outX, gX, hpushX⟩ := push_fits (g := if decide ('<' ∈ t) || decide ('<' ∈ x) then
    l.textGuard.freezePublication else l.textGuard) (by rwa [hsame])
  simp only [StreamState.pushDelta, hpushT, hpushX]
  exact ⟨outT, outX, _, rfl, syncFrozen_sameRest _⟩

theorem admitDelta_attended {added : ℕ} {afterFinish : Text} (hopen : l.sawFinish = false)
    (hfits : l.bufferedLen + added ≤ maxAssistantTextBytes) :
    Triple (Attended (σ := σ)) (admitDelta l added afterFinish) (fun _ => Attended) E := by
  rw [admitDelta, if_neg (by simp [hopen]), if_neg (by omega)]
  exact Triple.ret fun _ => id

theorem onStreamEvent_attended (h : Collecting done l) (hopen : l.sawFinish = false)
    {e : StreamEvent} (he : e.isDelta = true) (hfits : byteLen (reasoningOf (done ++ [e])) +
      byteLen (answerOf (done ++ [e])) ≤ maxAssistantTextBytes) :
    Triple (Attended (σ := σ)) (onStreamEvent l e)
      (fun l' s => (Collecting (done ++ [e]) l' ∧ l'.sawFinish = false) ∧ Attended s) E := by
  have hlen := h.bufferedLen
  obtain ⟨⟨rt, rx, hg⟩, htools⟩ := h
  have ht := congrArg byteLen hg.reasoningText
  have hx := congrArg byteLen hg.answerText
  rw [reasoningOf_concat, answerOf_concat, byteLen_append, byteLen_append] at hfits
  cases e with
  | thinking t =>
    simp only [StreamEvent.reasoning, StreamEvent.answer, byteLen_nil] at hfits
    refine Triple.seq (admitDelta_attended hopen (by omega)) ?_
    obtain ⟨out, l', hpush, htools', hopen'⟩ := pushThinking_fits (l := l) (t := t) (by omega)
    rw [hpush]
    exact Triple.seq (publishThinking_attended _) (Triple.ret fun s hs =>
      ⟨⟨⟨⟨_, _, hg.pushThinking hpush⟩, htools'.trans htools⟩, hopen'.trans hopen⟩, hs⟩)
  | text x =>
    simp only [StreamEvent.reasoning, StreamEvent.answer, byteLen_nil] at hfits
    refine Triple.seq (admitDelta_attended hopen (by omega)) ?_
    obtain ⟨out, l', hpush, htools', hopen'⟩ := pushText_fits (l := l) (x := x) (by omega)
    rw [hpush]
    exact Triple.seq (publishText_attended _) (Triple.ret fun s hs =>
      ⟨⟨⟨⟨_, _, hg.pushText hpush⟩, htools'.trans htools⟩, hopen'.trans hopen⟩, hs⟩)
  | assistantDelta t x =>
    simp only [StreamEvent.reasoning, StreamEvent.answer] at hfits
    refine Triple.seq (admitDelta_attended hopen (by omega)) ?_
    obtain ⟨outT, outX, l', hpush, htools', hopen'⟩ :=
      pushDelta_fits (l := l) (t := t) (x := x) (by omega) (by omega)
    rw [hpush]
    exact Triple.seq (publishThinking_attended _) (Triple.seq (publishText_attended _)
      (Triple.ret fun s hs =>
        ⟨⟨⟨⟨_, _, hg.pushDelta hpush⟩, htools'.trans htools⟩, hopen'.trans hopen⟩, hs⟩))
  | _ => simp [StreamEvent.isDelta] at he

theorem received_map_ok (events : List StreamEvent) : received (events.map .ok) = events := by
  induction events with
  | nil => rfl
  | cons e events ih => simp [received, ih]

theorem received_deltas (deltas : List StreamEvent) (reason : Option Text) :
    received (deltas.map .ok ++ [.ok (.finish reason)]) = deltas ++ [.finish reason] := by
  induction deltas with
  | nil => rfl
  | cons e deltas ih => simp [received, ih]

/-- Deltas within the size limit and one `Finish` event are consumed, by induction on the deltas. -/
theorem consumeStream_attended {deltas : List StreamEvent} (h : Collecting done l)
    (hopen : l.sawFinish = false) (hdeltas : ∀ e ∈ deltas, e.isDelta = true)
    (hfits : byteLen (reasoningOf (done ++ deltas)) + byteLen (answerOf (done ++ deltas)) ≤
      maxAssistantTextBytes) (reason : Option Text) :
    Triple (Attended (σ := σ)) (consumeStream l (deltas.map .ok ++ [.ok (.finish reason)]))
      (fun l' s => (Collecting (done ++ deltas ++ [.finish reason]) l' ∧ l'.sawFinish = true) ∧
        Attended s) E := by
  induction deltas generalizing done l with
  | nil =>
    obtain ⟨⟨rt, rx, hg⟩, htools⟩ := h
    refine Triple.seq closedOrCancel_attended ?_
    rw [onStreamEvent, onFinish, if_neg (by simp [hopen]), pure_bind]
    refine Triple.seq closedOrCancel_attended (Triple.ret fun s hs => ⟨⟨⟨⟨rt, rx, ?_⟩, htools⟩, rfl⟩, hs⟩)
    rw [List.append_nil]
    exact hg.other rfl rfl ⟨rfl, rfl, rfl⟩
  | cons e deltas ih =>
    have hassoc : done ++ e :: deltas = done ++ [e] ++ deltas := by simp
    rw [hassoc] at hfits ⊢
    refine Triple.seq closedOrCancel_attended (Triple.bind (onStreamEvent_attended h hopen
      (hdeltas e (List.mem_cons_self ..)) ?_) fun l' => Triple.assume fun hl' => ?_)
    · rw [reasoningOf_append, answerOf_append, byteLen_append, byteLen_append] at hfits
      omega
    · exact ih hl'.1 hl'.2 (fun e he => hdeltas e (List.mem_cons_of_mem _ he)) hfits

/-- A parse that accepts both channels of a turn without native calls gives a turn. -/
theorem parseTurn_accepts {json : SerdeJson} (callIds : ℕ → Text) (h : Collecting done l)
    (hpassed : Passed json done) : ∃ turn, parseTurn json callIds l = .ok turn := by
  obtain ⟨⟨rt, rx, hg⟩, htools⟩ := h
  obtain ⟨hreasoning, r, hr⟩ := hpassed
  rw [← hg.reasoningText] at hreasoning
  rw [← hg.answerText] at hr
  obtain ⟨remainder, hthinking⟩ := finish_plain_iff.mpr hreasoning
  unfold parseTurn
  rw [hthinking, htools]
  cases r with
  | plain t =>
    obtain ⟨rest, hanswer⟩ := finish_plain_iff.mpr ⟨t, hr⟩
    rw [hanswer]
    exact ⟨_, rfl⟩
  | toolCalls v calls =>
    rw [finish_toolCalls_iff.mpr hr]
    exact ⟨_, rfl⟩

theorem settleStream_attended (h : Collecting done l) (hfinish : l.sawFinish = true)
    (hpassed : Passed req.json done) (hfinal : iter.isUserFinal = false) :
    Triple (Attended (σ := σ)) (settleStream req setup iter l) (fun _ => Attended) E := by
  obtain ⟨turn, hturn⟩ := parseTurn_accepts (req.turns iter.n).callIds h hpassed
  refine Triple.seq (Triple.optional fun hc => absurd hc (by simp [hfinish]))
    (Triple.seq closedOrCancel_attended ?_)
  rw [hturn]
  refine Triple.seq (Triple.optional fun hc => absurd hc (by simp [hfinal]))
    (Triple.seq closedOrCancel_attended (Triple.seq ?_ (Triple.ret fun _ => id)))
  exact Triple.seq (publishThinking_attended _) (publishText_attended _)

theorem readTurn_attended {items : List (Except Text StreamEvent)} {opened : RunState σ}
    (h : Undisturbed req.json iter items opened) : TurnAccepted req setup iter items opened := by
  obtain ⟨hstays, ⟨deltas, reason, hdeltas, rfl⟩, hfits, hpassed, hfinal⟩ := h
  rw [received_deltas] at hfits hpassed
  have hread : Triple (Attended (σ := σ))
      (readTurn req setup iter (deltas.map .ok ++ [.ok (.finish reason)]))
      (fun _ _ => True) fun _ _ => False := by
    have hnew : Collecting [] {} := ⟨⟨_, _, Guarded.new⟩, rfl⟩
    refine Triple.bind (consumeStream_attended hnew rfl hdeltas ?_ reason) fun l => Triple.assume fun hl => ?_
    · rw [reasoningOf_append, answerOf_append, byteLen_append, byteLen_append] at hfits
      simp only [List.nil_append]
      omega
    · exact Triple.bind (settleStream_attended hl.1 hl.2 hpassed hfinal) fun turn =>
        Triple.ret fun _ _ => trivial
  have hended := hread opened hstays
  rcases hr : outcome (readTurn req setup iter (deltas.map .ok ++ [.ok (.finish reason)]))
    opened with ⟨o | parsed, s⟩
  · rw [hr] at hended
    exact hended.elim
  · exact ⟨parsed, s, hr⟩

/-- Every iteration isolates the channels of its stream; without a stream it delivers nothing. -/
def IterationIsolated (req : RunRequest σ) (setup : RunSetup) (before after : RunState σ) : Prop :=
  match outcome (openTurn req setup) before with
  | (.error _, _) => thinkingOf (deliveredBetween before after) = [] ∧
      textOf (deliveredBetween before after) = []
  | (.ok (iter, items), opened) => TurnIsolated req setup iter items before opened after

theorem iteration_isolated (req : RunRequest σ) (setup : RunSetup) {s : RunState σ} (h : Fresh s) :
    IterationIsolated req setup s (outcome (iteration req setup) s).2 := by
  have hopen := openTurn_spec req setup h.1 h.2 s rfl
  rw [iteration_eq, outcome_bind, IterationIsolated]
  have hprovider := openTurn_provider req setup s trivial
  rcases ho : outcome (openTurn req setup) s with ⟨o | ⟨iter, items⟩, opened⟩
  · rw [ho] at hopen
    exact Out.delivered hopen
  rw [ho] at hopen hprovider
  have hguards : Guards s.ledger [] {} opened := In.imp hopen
    (Since.imp fun rt rx hnil => by simpa [hnil.1, hnil.2] using Guarded.new)
  have hloop := consumeStream_provisional items opened hguards
  have hread := readTurn_spec req setup iter items opened hguards
  refine ⟨hprovider, delivered_of_ends hloop, ?_, ?_, readTurn_attended⟩
  all_goals
    dsimp only
    rw [outcome_bind]
    rcases hr : outcome (readTurn req setup iter items) opened with ⟨o | ⟨l, turn⟩, s'⟩
    all_goals rw [hr] at hread
  · exact Out.delivered hread
  · exact delivered_of_ends (decideTurn_spec (durable_since req _ _) l turn s'
      (hread.imp (Since.imp fun _ _ h => h.1)))
  · rintro ⟨parsed, settled, haccepted⟩
    rw [hr] at haccepted
    cases haccepted
  · intro haccepted
    exact delivered_of_ends (P := fun rt _ => Flushed req.json (received items) rt)
      (decideTurn_spec (durable_since req _ _) l turn s' (hread.imp (Since.imp fun _ _ h => h.2)))

/-- In every iteration of every run, nothing received behind a `<` is delivered before both
channels have passed the parse, and textual tool calls deliver no answer and exactly the
reasoning in front of them. -/
theorem run_isolates_channels (req : RunRequest σ) (session : Session) (ctx : ToolContext)
    (tx : Channel) (store : σ) {before after : RunState σ}
    (h : (before, after) ∈ runSpans req session ctx tx store) :
    IterationIsolated req (runSetup req session ctx) before after := by
  obtain ⟨hfresh, hafter⟩ := runSpans_spec h
  rw [show after = _ from hafter]
  exact iteration_isolated _ _ hfresh

end

/-! Textual calls behind reasoning with a `<` of its own. -/

/-- Reasoning with a `<`, and behind it one textual call. -/
def callBehindLt : List StreamEvent :=
  [.thinking "a<b".toList, .text (oneCallTurn noGap (Or.inl rfl)).text, .finish none]

/-- A lone `<` is no protocol. -/
theorem parseAssistantText_loneLt :
    parseAssistantText oneStringJson ['a', '<', 'b'] = .ok (.plain ['a', '<', 'b']) := by
  have hranges : completeMarkdownBlockRanges ['a', '<', 'b'] = [] := by decide +kernel
  have hfence : fenceOpeningAtLine ['a', '<', 'b'] 0 (lineEnd ['a', '<', 'b'] 0) = none := by
    decide +kernel
  have hmiddle : isLineStart ['a', '<', 'b'] 1 = false := by decide +kernel
  have hlast : isLineStart ['a', '<', 'b'] 2 = false := by decide +kernel
  have htag : parseCandidateTag ['b'] = .ok .notDsml := rfl
  have hfind : findNextVisibleDsmlTag ['a', '<', 'b'] 0 = .ok none := by
    simp [findNextVisibleDsmlTag, hranges, pendingRanges, findNextVisibleFrom,
      findNextVisibleFrom.visit, hfence, hmiddle, hlast, htag]
  rw [parseAssistantText, if_neg (by decide), hfind]
  rfl

theorem callBehindLt_parses : Passed oneStringJson callBehindLt ∧
    CallsTools oneStringJson callBehindLt := by
  have hanswer := parse_renderedTurn (oneCallTurn noGap (Or.inl rfl)) (by decide +kernel)
  rw [show (oneCallTurn noGap (Or.inl rfl)).text = answerOf callBehindLt by
    simp [answerOf, callBehindLt, StreamEvent.answer]] at hanswer
  exact ⟨⟨⟨_, parseAssistantText_loneLt⟩, _, hanswer⟩, _, _, hanswer⟩

/-- Provisional reasoning stops at its own `<`. -/
theorem callBehindLt_short {t : Text} (h : t <+: provisionalReasoning callBehindLt) :
    t ≠ reasoningBeforeAnswerLt callBehindLt := by
  have hprovisional : provisionalReasoning callBehindLt = ['a'] := by decide +kernel
  have hbefore : reasoningBeforeAnswerLt callBehindLt = ['a', '<', 'b'] := by decide +kernel
  rintro rfl
  rw [hprovisional, hbefore] at h
  simpa using h.length_le

/-! A view below the compaction trigger is sent. -/

section
variable {σ : Type} {req : RunRequest σ} {setup : RunSetup} {iter : IterationSetup}
  {E : RunOutcome → RunState σ → Prop}

/-- The session when the request is built: a user-limited final iteration adds its notice. -/
def requestSession (iter : IterationSetup) (session : Session) : Session :=
  if iter.isUserFinal then
    { session with
      messages := session.messages ++ [harnessNotice (userFinalIterationNotice iter.n)] }
  else session

theorem askProvider_attended {session : Session} {items : List (Except Text StreamEvent)}
    (hview : Compact.isOverTrigger req.ratios
      (viewTokens req setup iter (requestSession iter session)) req.contextWindow = false)
    (hwall : viewTokens req setup iter (requestSession iter session) ≤
      Compact.hardWallTokens req.ratios req.contextWindow)
    (hstream : (req.turns iter.n).stream = .ok items) :
    Triple (fun s => Attended s ∧ s.session = session) (askProvider req setup iter)
      (fun _ => Attended) E := by
  let M : RunState σ → Prop := fun s => Attended s ∧ s.session = requestSession iter session
  refine Triple.seq (M := M) ?_ (Triple.seq (M := M) ?_ ?_)
  · refine Triple.choose (fun h => Triple.update ?_) fun h => Triple.ret ?_
    · rintro s ⟨hs, rfl⟩
      exact ⟨hs, by rw [requestSession, if_pos h]; rfl⟩
    · rintro s ⟨hs, rfl⟩
      exact ⟨hs, by rw [requestSession, if_neg h]⟩
  · refine Triple.readKeep fun s hs => ?_
    rw [hs.2, if_neg (by simp [hview])]
    exact Triple.ret fun _ => id
  · refine Triple.readKeep fun s hs => ?_
    rw [hs.2, hstream]
    refine Triple.seq (M := Attended) (Triple.choose (fun h => absurd h (by omega)) fun _ =>
      Triple.ret fun s hs => hs.1) (Triple.seq closedOrCancel_attended
        (Triple.seq (M := Attended) (Triple.update fun _ => id) (Triple.ret fun _ => id)))

theorem sendOrCancel_session {session : Session} (event : AgentEvent) :
    Triple (fun s : RunState σ => Attended s ∧ s.session = session) (sendOrCancel event)
      (fun _ s => Attended s ∧ s.session = session) E := by
  refine Triple.bind (Q := fun accepted s => accepted = true ∧ Attended s ∧ s.session = session)
    (Triple.updateGet fun s hs => ?_) fun accepted =>
      Triple.assume fun h => Triple.choose (fun _ => Triple.ret fun _ => id) fun hn => absurd h hn
  obtain ⟨haccepted, hopen⟩ := offer_attended hs.1 event
  exact ⟨haccepted, hopen, hs.2⟩

theorem beginIteration_attended {s₀ : RunState σ} (h : Attended s₀) :
    Triple (fun s => s = s₀) (beginIteration setup)
      (fun iter s => (iter.n = s₀.progress.iterations + 1 ∧ iter.isUserFinal =
        (setup.userIterationCapActive && s₀.progress.iterations + 1 == setup.iterationLimit)) ∧
        Attended s ∧ s.session = s₀.session) E := by
  let M : RunState σ → Prop := fun s => s.progress.iterations = s₀.progress.iterations + 1 ∧
    Attended s ∧ s.session = s₀.session
  refine Triple.seq (M := M) (Triple.update ?_) (Triple.read fun s hs => ?_)
  · rintro s rfl
    exact ⟨rfl, h, rfl⟩
  · refine Triple.seq ((sendOrCancel_session _).pre ?_) (Triple.readKeep fun _ _ =>
      Triple.ret fun s' hs' => ⟨⟨hs.1, ?_⟩, hs'⟩)
    · rintro s' rfl
      exact hs.2
    · rw [hs.1]

end

theorem min_of_prompt (prompt policy : Text) (limit : Option ℕ) :
    ([prompt, policy].filterMap fun text => if text = prompt then limit else none).min? =
      limit := by
  cases limit with
  | none => simp
  | some n => by_cases h : policy = prompt <;> simp [h]

/-- The prompt decides whether the single iteration of a sample is limited by the user. -/
theorem runSetup_sample (prompt : Text) (limit : Option ℕ) (json : SerdeJson)
    (events : List StreamEvent) (session : Session) (hlimit : limit = none ∨ limit = some 1) :
    (runSetup (sampleRequest prompt limit json events) session {}).iterationLimit = 1 ∧
      (runSetup (sampleRequest prompt limit json events) session {}).userIterationCapActive =
        limit.isSome := by
  have h : ∀ policy : Text, effectiveIterationLimit ([prompt, policy].filterMap fun text =>
      if text = prompt then limit else none).min? 1 = (1, limit.isSome) := by
    intro policy
    rw [min_of_prompt]
    rcases hlimit with rfl | rfl <;> rfl
  have hsetup := h scienceExecutionPolicy
  exact ⟨congrArg Prod.fst hsetup, congrArg Prod.snd hsetup⟩

section
variable (limit : Option ℕ)

def callRequest : RunRequest Unit := sampleRequest "hello".toList limit oneStringJson callBehindLt

def callSetup : RunSetup := runSetup (callRequest limit) (sampleSession []) {}

def callStart : RunState Unit := (startRun (callRequest limit) (sampleSession []) {} {} ()).2

variable {limit}

theorem callSetup_limit (limit : Option ℕ) (hlimit : limit = none ∨ limit = some 1) :
    (callSetup limit).iterationLimit = 1 := by
  rw [callSetup, callRequest]
  exact (runSetup_sample _ _ _ _ _ hlimit).1

theorem callStart_accepted (limit : Option ℕ) :
    startRun (callRequest limit) (sampleSession []) {} {} () = (true, callStart limit) := rfl

/-- The first iteration of the sample. -/
theorem callStart_mem (h : (callSetup limit).iterationLimit = 1) :
    (callStart limit, (outcome (iteration (callRequest limit) (callSetup limit))
      (callStart limit)).2) ∈ runSpans (callRequest limit) (sampleSession []) {} {} () := by
  change _ ∈ iterationSpans (callRequest limit) (callSetup limit) (callSetup limit).iterationLimit
    (callStart limit)
  rw [h, iterationSpans]
  rcases outcome (iteration (callRequest limit) (callSetup limit)) (callStart limit)
    with ⟨o | _, s'⟩
  · exact List.mem_singleton_self _
  · exact List.mem_cons_self ..

/-! The length of the texts in the view. -/

theorem length_literal_le {cs : List Char} {n : ℕ} (h : cs.length ≤ n) :
    (String.ofList cs).toList.length ≤ n := by
  rwa [String.toList_ofList]

theorem add_line_le {a b n : ℕ} (hb : b ≤ 400) (ha : a ≤ n) : a + b ≤ n + 400 :=
  Nat.add_le_add ha hb

set_option maxRecDepth 20000 in
theorem scienceExecutionPolicy_length_le : scienceExecutionPolicy.length ≤ 4000 := by
  refine Nat.le_trans (m := 400 + 400 + 400 + 400 + 400 + 400 + 400 + 400 + 400) ?_ (by decide)
  unfold scienceExecutionPolicy
  rw [List.length_append, List.length_append, List.length_append, List.length_append,
    List.length_append, List.length_append, List.length_append, List.length_append]
  iterate 8 refine add_line_le (by apply length_literal_le; decide +kernel) ?_
  apply length_literal_le
  decide +kernel

theorem userFinalIterationNotice_length_le : (userFinalIterationNotice 1).length ≤ 1201 := by
  unfold userFinalIterationNotice
  rw [List.length_append, List.length_append]
  refine add_line_le (by apply length_literal_le; decide +kernel) (add_line_le (by decide) ?_)
  apply length_literal_le
  decide +kernel

theorem estimate_harnessNotice (text : Text) :
    Compact.estimateMessageTokens (harnessNotice text) = (text.length + 8) / 4 := by
  simp [Compact.estimateMessageTokens, harnessNotice, ChatMessage.ofSystem, Compact.charsPerToken]

theorem viewTokens_le {σ : Type} {req : RunRequest σ} {setup : RunSetup} {iter : IterationSetup}
    {session : Session} {policy notice : Text} (hschema : toolSchemaTokens req iter = 0)
    (hview : buildView req setup session = harnessNotice policy ::
      ChatMessage.ofUser "hello".toList :: if iter.isUserFinal then [harnessNotice notice] else [])
    (hpolicy : policy.length ≤ 4000) (hnotice : notice.length ≤ 1201) :
    viewTokens req setup iter session ≤ 2000 := by
  have huser : Compact.estimateMessageTokens (ChatMessage.ofUser "hello".toList) = 3 := by decide
  rw [viewTokens, hschema, hview, Compact.estimateMessagesTokens, Compact.saturatingAdd]
  refine (Nat.min_le_left _ _).trans ?_
  split_ifs
  · simp only [List.map_cons, List.map_nil, List.sum_cons, List.sum_nil, estimate_harnessNotice,
      huser]
    omega
  · simp only [List.map_cons, List.map_nil, List.sum_cons, List.sum_nil, estimate_harnessNotice,
      huser]
    omega

theorem callRequest_view (limit : Option ℕ) (iter : IterationSetup) (hn : iter.n = 1) :
    viewTokens (callRequest limit) (callSetup limit) iter
      (requestSession iter (callStart limit).session) ≤ 2000 := by
  refine viewTokens_le ?_ ?_ scienceExecutionPolicy_length_le
    (hn ▸ userFinalIterationNotice_length_le)
  · have htext : (callRequest limit).json.toText
        (.array ((toolDefs (callRequest limit) iter).map ToolDef.toJson)) = "{}".toList := rfl
    rw [toolSchemaTokens, htext]
    decide
  · unfold requestSession
    split_ifs <;> rfl

/-- The provider of the sample is asked. -/
theorem callRequest_opens (limit : Option ℕ) (hlimit : limit = none ∨ limit = some 1) :
    ∃ iter opened, outcome (openTurn (callRequest limit) (callSetup limit)) (callStart limit) =
      (.ok (iter, callBehindLt.map .ok), opened) ∧ iter.isUserFinal = limit.isSome ∧
      Attended opened := by
  obtain ⟨honce, hcap⟩ := runSetup_sample "hello".toList limit oneStringJson callBehindLt
    (sampleSession []) hlimit
  let Q : IterationSetup × List (Except Text StreamEvent) → RunState Unit → Prop := fun turn s =>
    turn.1.isUserFinal = limit.isSome ∧ Attended s
  have hopen : Triple (fun s => s = callStart limit)
      (openTurn (callRequest limit) (callSetup limit)) Q fun _ _ => False := by
    refine Triple.bind (beginIteration_attended rfl) fun iter => Triple.assume fun hiter => ?_
    have hview := callRequest_view limit iter hiter.1
    have hstream : ((callRequest limit).turns iter.n).stream = .ok (callBehindLt.map .ok) := rfl
    refine Triple.bind (askProvider_attended ?_ ?_ hstream) fun items => Triple.ret fun s hs => ?_
    · have htrigger : Compact.compactionTriggerTokens (callRequest limit).ratios
          (callRequest limit).contextWindow = 96000 := by
        change min (128000 * 3 / 4) 300000 = 96000
        decide
      rw [Compact.isOverTrigger, htrigger]
      simp only [OfNat.ofNat_ne_zero, if_false, decide_eq_false_iff_not]
      omega
    · have hwall : Compact.hardWallTokens (callRequest limit).ratios
          (callRequest limit).contextWindow = 115200 := by
        change min (128000 * 9 / 10) 300000 = 115200
        decide
      omega
    · refine ⟨?_, hs⟩
      rw [hiter.2, callSetup, callRequest, honce, hcap]
      exact Bool.and_true _
  have hprovider := openTurn_provider (callRequest limit) (callSetup limit)
    (callStart limit) trivial
  have hopened := hopen (callStart limit) rfl
  rcases ho : outcome (openTurn (callRequest limit) (callSetup limit)) (callStart limit)
    with ⟨o | ⟨iter, items⟩, opened⟩
  · rw [ho] at hopened
    exact hopened.elim
  · rw [ho] at hopened hprovider
    obtain rfl : callBehindLt.map .ok = items := Except.ok.inj hprovider
    exact ⟨iter, opened, rfl, hopened⟩

end

section
variable {σ : Type} {req : RunRequest σ} {setup : RunSetup} {before after opened : RunState σ}
  {iter : IterationSetup} {events : List StreamEvent}

theorem IterationIsolated.turn (h : IterationIsolated req setup before after)
    (hopen : outcome (openTurn req setup) before = (.ok (iter, events.map .ok), opened)) :
    TurnIsolated req setup iter (events.map .ok) before opened after := by
  rw [IterationIsolated, hopen] at h
  exact h

/-- A final iteration that the user has limited delivers provisional reasoning only. -/
theorem IterationIsolated.userFinal (h : IterationIsolated req setup before after)
    (hopen : outcome (openTurn req setup) before = (.ok (iter, events.map .ok), opened))
    (hfinal : iter.isUserFinal = true) (hcalls : CallsTools req.json events) :
    thinkingOf (deliveredBetween before after) <+: provisionalReasoning events := by
  have hrejected := (h.turn hopen).isolated.rejected
  rw [received_map_ok] at hrejected
  exact (hrejected (Or.inr ⟨hfinal, hcalls⟩)).1

/-- An accepted turn of calls delivers the reasoning in front of them. -/
theorem IterationIsolated.delivers (h : IterationIsolated req setup before after)
    (hopen : outcome (openTurn req setup) before = (.ok (iter, events.map .ok), opened))
    (hstream : Undisturbed req.json iter (events.map .ok) opened)
    (hcalls : CallsTools req.json events) :
    thinkingOf (deliveredBetween before after) = reasoningBeforeAnswerLt events := by
  have hflushed := (h.turn hopen).flushed ((h.turn hopen).accepted hstream)
  rw [received_map_ok] at hflushed
  exact hflushed hcalls

end

theorem callBehindLt_undisturbed {iter : IterationSetup} {opened : RunState Unit}
    (hstays : Attended opened) (hfinal : iter.isUserFinal = false) :
    Undisturbed oneStringJson iter (callBehindLt.map .ok) opened where
  stays := hstays
  stream := ⟨[.thinking "a<b".toList, .text (oneCallTurn noGap (Or.inl rfl)).text], none,
    by decide, rfl⟩
  fits := by
    rw [received_map_ok]
    decide +kernel
  passed := by
    rw [received_map_ok]
    exact callBehindLt_parses.1
  notFinal := hfinal

/-- Reasoning behind its own `<` is delivered in full when the turn is accepted. -/
theorem run_isolates_channels_callBehindLt :
    ∃ before after, (before, after) ∈ runSpans (callRequest none) (sampleSession []) {} {} () ∧
      thinkingOf (deliveredBetween before after) = reasoningBeforeAnswerLt callBehindLt := by
  obtain ⟨iter, opened, hopen, hfinal, hstays⟩ := callRequest_opens none (Or.inl rfl)
  have hmem := callStart_mem (callSetup_limit none (Or.inl rfl))
  have hisolated := run_isolates_channels (callRequest none) (sampleSession []) {} {} () hmem
  exact ⟨_, _, hmem, hisolated.delivers hopen (callBehindLt_undisturbed hstays hfinal)
    callBehindLt_parses.2⟩

/-- In a final iteration that the user has limited, the reasoning behind its own `<` stays
private: the calls are rejected before it is flushed. -/
theorem userFinal_withholds_reasoning :
    ∃ before after iter opened,
      (before, after) ∈ runSpans (callRequest (some 1)) (sampleSession []) {} {} () ∧
      outcome (openTurn (callRequest (some 1)) (callSetup (some 1))) before =
        (.ok (iter, callBehindLt.map .ok), opened) ∧
      Passed oneStringJson callBehindLt ∧ CallsTools oneStringJson callBehindLt ∧
      thinkingOf (deliveredBetween before after) ≠ reasoningBeforeAnswerLt callBehindLt := by
  obtain ⟨iter, opened, hopen, hfinal, -⟩ := callRequest_opens (some 1) (Or.inr rfl)
  have hmem := callStart_mem (callSetup_limit (some 1) (Or.inr rfl))
  have hfresh := fresh_of_accepted (callStart_accepted (some 1))
  have hisolated := iteration_isolated (callRequest (some 1)) (callSetup (some 1)) hfresh
  have hlead₀ := hisolated.userFinal hopen hfinal callBehindLt_parses.2
  exact ⟨_, _, iter, opened, hmem, hopen, callBehindLt_parses.1, callBehindLt_parses.2,
    callBehindLt_short hlead₀⟩

end DeepseekScience.Agent
