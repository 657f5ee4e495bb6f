import DeepseekScience.Agent.Ledger

/-! One specification for each part of the Runner, in terms of the phases of an iteration:
every way out of an iteration leaves a settled ledger behind. -/
namespace DeepseekScience.Agent

open Tools Dsml Exits

/-! The channel. -/

theorem poll_sent (tx : Channel) : tx.poll.2.sent = tx.sent := by
  unfold Channel.poll
  split <;> rfl

theorem offer_sent (tx : Channel) (event : AgentEvent) :
    (tx.offer event).2.sent = tx.sent ++ [⟨event, (tx.offer event).1⟩] := by
  simp only [Channel.offer, poll_sent]

section
variable {σ : Type} {I : StoreInvariant σ} {b : Ledger σ} {phase : Phase}
  {A A' : Ledger σ → Prop} {E : RunOutcome → RunState σ → Prop} {α : Type}
  {Q : α → RunState σ → Prop}

/-- The state is in a phase of the iteration that began with `b`. -/
def In (I : StoreInvariant σ) (b : Ledger σ) (phase : Phase) (s : RunState σ) : Prop :=
  At I b phase s.ledger

def Out (I : StoreInvariant σ) (b : Ledger σ) (o : RunOutcome) (s : RunState σ) : Prop :=
  Left I b o s.ledger

/-- The ledger is in some phase, so that the run can be cancelled. -/
def Live (I : StoreInvariant σ) (b : Ledger σ) (l : Ledger σ) : Prop :=
  ∃ phase, At I b phase l

theorem At.live {l : Ledger σ} (h : At I b phase l) : Live I b l := ⟨phase, h⟩

theorem At.send {l : Ledger σ} {d : Delivery} (h : At I b phase l) (hd : d.IsSilent)
    (hkind : d.terminalKind = none) : At I b phase { l with sent := l.sent ++ [d] } := by
  obtain ⟨sent, added, hsent, hmessages, hphase, hterm, hstored⟩ := h
  refine ⟨sent ++ [d], added, ?_, hmessages, hphase.withSilent hd, ?_,
    hstored.send hd.1 hd.2.1⟩
  · rw [← List.append_assoc, ← hsent]
  · rw [terminalsOf_concat, hterm, hkind]
    rfl

theorem At.push {l : Ledger σ} {m : ChatMessage} (h : At I b phase l) (hm : IsNotice m) :
    At I b phase { l with messages := l.messages ++ [m] } := by
  obtain ⟨sent, added, hsent, hmessages, hphase, hterm, hstored⟩ := h
  refine ⟨sent, added ++ [m], hsent, ?_, hphase.withNotice hm, hterm,
    hstored.append rfl rfl rfl rfl⟩
  rw [← List.append_assoc, ← hmessages]

theorem At.settle {s : RunState σ} {f : RunState σ → RunState σ} (hf : Settles phase f)
    (h : At I b phase s.ledger) : At I b .settled (f s).ledger := by
  obtain ⟨sent, added, hsent, hmessages, hphase, hterm, hstored⟩ := h
  obtain ⟨ms, hledger, hrec⟩ := hf s sent added hphase
  rw [hledger]
  refine ⟨sent, added ++ ms, hsent, ?_, ⟨rfl, hrec⟩, hterm, hstored.append rfl rfl rfl rfl⟩
  rw [← List.append_assoc, ← hmessages]

/-! The primitives. -/

theorem send_spec {event : AgentEvent} {R : Bool → Ledger σ → Prop}
    (h : ∀ l accepted, A l → R accepted { l with sent := l.sent ++ [⟨event, accepted⟩] }) :
    Triple (fun s => A s.ledger) (send event) (fun accepted s => R accepted s.ledger) E := by
  refine Triple.updateGet fun s hs => ?_
  have hsent := h s.ledger (s.tx.offer event).1 hs
  rw [show s.ledger.sent = s.tx.sent from rfl, ← offer_sent] at hsent
  exact hsent

theorem isClosed_spec : Triple (fun s => A s.ledger) isClosed (fun _ s => A s.ledger) E := by
  refine Triple.updateGet fun s hs => ?_
  have hledger : ({ s with tx := s.tx.poll.2 } : RunState σ).ledger = s.ledger := by
    simp only [RunState.ledger, poll_sent]
  rw [hledger]
  exact hs

theorem modify_spec {f : RunState σ → RunState σ} (h : ∀ s, (f s).ledger = s.ledger) :
    Triple (fun s => A s.ledger) (modify f) (fun _ s => A s.ledger) E :=
  Triple.update_rest h

theorem pushNotice_spec (text : Text) :
    Triple (In I b phase) (pushNotice text) (fun _ => In I b phase) E :=
  Triple.update fun _ hs => At.push hs rfl

/-- Cancelling settles the iteration from every phase. -/
theorem cancel_spec : Triple (fun s => Live I b s.ledger) (cancel : Run σ α) Q (Out I b) := by
  refine Triple.readKeep fun s _ => ?_
  refine Triple.seq (M := fun s => At I b .settled s.ledger) (Triple.update ?_)
    (Triple.exit ?_)
  · rintro s ⟨phase, hs⟩
    exact hs.settle (settles_cancelled phase)
  · rintro s ⟨sent, added, hsent, hmessages, hphase, hterm, hstored⟩
    exact ⟨sent, added, hsent, hmessages, hphase, hstored, Or.inl ⟨rfl, hterm⟩⟩

theorem closedOrCancel_spec (hA : ∀ l, A l → Live I b l) :
    Triple (fun s => A s.ledger) closedOrCancel (fun _ s => A s.ledger) (Out I b) := by
  refine Triple.bind isClosed_spec fun closed => Triple.choose (fun _ => ?_) fun _ => ?_
  · exact cancel_spec.pre fun s => hA s.ledger
  · exact Triple.ret fun _ => id

theorem selectOrCancel_spec (hA : ∀ l, A l → Live I b l) {f : RunState σ → RunState σ}
    (hf : ∀ s, (f s).ledger = s.ledger) :
    Triple (fun s => A s.ledger) (selectOrCancel f) (fun _ s => A s.ledger) (Out I b) := by
  refine Triple.bind isClosed_spec fun closed => Triple.choose (fun _ => ?_) fun _ => ?_
  · exact Triple.seq (modify_spec hf) (cancel_spec.pre fun s => hA s.ledger)
  · exact Triple.ret fun _ => id

/-- Sending an event whose refusal changes nothing; `A'` is what its acceptance makes of `A`. -/
theorem sendOrCancel_spec {event : AgentEvent} (hA : ∀ l, A l → At I b phase l)
    (hrefused : (⟨event, false⟩ : Delivery).IsSilent)
    (hkind : (⟨event, false⟩ : Delivery).terminalKind = none)
    (haccepted : ∀ l, A l → A' { l with sent := l.sent ++ [⟨event, true⟩] }) :
    Triple (fun s => A s.ledger) (sendOrCancel event) (fun _ s => A' s.ledger) (Out I b) := by
  refine Triple.bind
    (send_spec (R := fun accepted l => if accepted then A' l else Live I b l) ?_)
    fun accepted => Triple.choose (fun h => ?_) fun h => ?_
  · intro l accepted hl
    cases accepted with
    | true => exact haccepted l hl
    | false => exact ((hA l hl).send hrefused hkind).live
  · rw [h]
    exact Triple.ret fun _ => id
  · rw [Bool.eq_false_iff.mpr h]
    exact cancel_spec

theorem sendSilent_spec {event : AgentEvent}
    (h : ∀ accepted, (⟨event, accepted⟩ : Delivery).IsSilent)
    (hkind : ∀ accepted, (⟨event, accepted⟩ : Delivery).terminalKind = none) :
    Triple (In I b phase) (sendOrCancel event) (fun _ => In I b phase) (Out I b) :=
  sendOrCancel_spec (A := At I b phase) (fun _ => id) (h false) (hkind false)
    fun _ hl => hl.send (h true) (hkind true)

/-- The terminal event is delivered first; then the published turn is recorded. -/
theorem completeWith_spec {o : RunOutcome} {status : FrameStatus} {plan : Option PlanState}
    {settle : RunState σ → RunState σ} (hkind : o.kind ≠ .cancelled)
    (hsettle : Settles phase settle) :
    Triple (In I b phase) (completeWith o status plan settle : Run σ α) Q (Out I b) := by
  let last : Delivery := ⟨o.event status plan, true⟩
  let A' : Ledger σ → Prop := fun l => ∃ sent added, l.sent = b.sent ++ (sent ++ [last]) ∧
    l.messages = b.messages ++ added ∧ phase.Holds (sent ++ [last]) added l.published ∧
    Stored I l ∧ terminalsOf sent = []
  have hlast : last.IsSilent := ⟨rfl, rfl, rfl, rfl⟩
  refine Triple.seq (M := fun s => A' s.ledger)
    (sendOrCancel_spec (fun _ (h : At I b phase _) => h) ⟨rfl, rfl, rfl, rfl⟩ rfl ?_) ?_
  · rintro l ⟨sent, added, hsent, hmessages, hphase, hterm, hstored⟩
    refine ⟨sent, added, ?_, hmessages, hphase.withSilent hlast,
      hstored.send hlast.1 hlast.2.1, hterm⟩
    rw [← List.append_assoc, ← hsent]
  · refine Triple.seq (M := Out I b o) (Triple.update ?_) (Triple.exit fun _ => id)
    rintro s ⟨sent, added, hsent, hmessages, hphase, hstored, hterm⟩
    obtain ⟨ms, hledger, hrec⟩ := hsettle s _ added hphase
    rw [Out, ledger_setStatus, hledger]
    refine ⟨sent ++ [last], added ++ ms, hsent, ?_, ⟨rfl, hrec⟩, hstored.append rfl rfl rfl rfl,
      Or.inr ⟨hkind, sent, last, rfl, hterm, rfl⟩⟩
    rw [← List.append_assoc, ← hmessages]

theorem fail_spec (h : Settles phase (RunState.commitPublished : RunState σ → RunState σ))
    (message : Text) : Triple (In I b phase) (fail message : Run σ α) Q (Out I b) :=
  Triple.readKeep fun _ _ => completeWith_spec (by simp) h

theorem fail_drafting (message : Text) :
    Triple (In I b .drafting) (fail message : Run σ α) Q (Out I b) :=
  fail_spec settles_commitPublished_drafting message

theorem fail_settled (message : Text) :
    Triple (In I b .settled) (fail message : Run σ α) Q (Out I b) :=
  fail_spec settles_commitPublished_settled message

theorem isEmpty_eq_false {p : PublishedTurn} (h : p.thinking ≠ [] ∨ p.text ≠ []) :
    p.isEmpty = false := by
  rcases h with h | h <;> simp [PublishedTurn.isEmpty, h]

/-- A draft that shows something. -/
def Shown (I : StoreInvariant σ) (b : Ledger σ) (s : RunState σ) : Prop :=
  At I b .drafting s.ledger ∧ s.ledger.published.isEmpty = false

theorem Shown.drafting {s : RunState σ} (h : Shown I b s) : In I b .drafting s := h.1

theorem shown_spec {f : RunState σ → RunState σ} (h : ∀ s, (f s).ledger = s.ledger) :
    Triple (Shown I b) (modify f) (fun _ => Shown I b) E :=
  modify_spec (A := fun l => At I b .drafting l ∧ l.published.isEmpty = false) h

/-- Hiding settles the draft, whether or not its reset is accepted. -/
theorem hideDraft_spec (reason : Text) :
    Triple (Shown I b) (hideDraft reason) (fun _ => In I b .settled) (Out I b) := by
  let M : Ledger σ → Prop := fun l => ∃ sent added, l.sent = b.sent ++ sent ∧
    l.messages = b.messages ++ added ∧ l.published = {} ∧ terminalsOf sent = [] ∧ Stored I l ∧
    ∀ accepted, Recorded (sent ++ [⟨.draftReset reason, accepted⟩]) added
  refine Triple.seq (M := fun s => M s.ledger) (Triple.update ?_) (Triple.bind
    (send_spec (R := fun _ l => At I b .settled l) ?_) fun accepted => ?_)
  · rintro s ⟨⟨sent, added, hsent, hmessages, hphase, hterm, hstored⟩, hshown⟩
    have ⟨_, _, _, hcalls, hreset, _⟩ := hphase
    change M (s.recordPublished true).ledger
    rw [ledger_recordPublished]
    refine ⟨sent, added ++ recordedMessages s.progress.published s.progress.iterationUsage true,
      hsent, ?_, rfl, hterm, hstored.append rfl rfl rfl rfl, fun accepted => ?_⟩
    · rw [← List.append_assoc, ← hmessages]
    · exact recorded_of_drafting hphase (by simp [Delivery.thinking])
        (by simp [Delivery.text]) (by simp [hcalls, Delivery.isCalls])
        (by simp [Delivery.isReset]) (fun _ => hshown) _
  · rintro l accepted ⟨sent, added, hsent, hmessages, hpub, hterm, hstored, hrec⟩
    refine ⟨sent ++ [⟨.draftReset reason, accepted⟩], added, ?_, hmessages,
      ⟨hpub, hrec accepted⟩, ?_, hstored.send rfl rfl⟩
    · rw [← List.append_assoc, ← hsent]
    · rw [terminalsOf_concat, hterm]
      rfl
  · refine Triple.choose (fun _ => Triple.ret fun _ => id) fun _ => ?_
    exact cancel_spec.pre fun s => At.live

theorem failInvalidatedCandidate_spec (reason message : Text) :
    Triple (In I b .drafting) (failInvalidatedCandidate reason message : Run σ α) Q (Out I b) := by
  refine Triple.read fun s hs => ?_
  unfold onlyIf
  refine Triple.bind (Q := fun _ s => In I b .drafting s ∨ In I b .settled s)
    (Triple.choose (fun hdraft => ?_) fun _ => Triple.ret ?_) fun _ => ?_
  · have hempty : s.progress.published.isEmpty = false := by
      rcases Bool.or_eq_true_iff.mp hdraft with h | h
      · exact isEmpty_eq_false (Or.inl (by simpa using h))
      · exact isEmpty_eq_false (Or.inr (by simpa using h))
    refine ((hideDraft_spec reason).pre ?_).post fun _ _ => Or.inr
    rintro s' rfl
    exact ⟨hs, hempty⟩
  · rintro s' rfl
    exact Or.inl hs
  · refine Triple.of_each fun s' hs' => ?_
    rcases hs' with hs' | hs'
    · exact (fail_drafting message).pre fun _ h => h ▸ hs'
    · exact (fail_settled message).pre fun _ h => h ▸ hs'

theorem failProtocol_spec (message : Text) :
    Triple (In I b .drafting) (failProtocol message : Run σ α) Q (Out I b) :=
  failInvalidatedCandidate_spec _ message

/-! The stream. -/

theorem Stored.imp {I' : StoreInvariant σ} {l : Ledger σ}
    (h : Stored I l) (hI : ∀ d ms store, I d ms store → I' d ms store) : Stored I' l :=
  ⟨h.1, hI _ _ _ h.2⟩

theorem In.imp {I' : StoreInvariant σ} {s : RunState σ}
    (h : In I b phase s) (hI : ∀ d ms store, I d ms store → I' d ms store) : In I' b phase s := by
  obtain ⟨sent, added, hsent, hmessages, hphase, hterm, hstored⟩ := h
  exact ⟨sent, added, hsent, hmessages, hphase, hterm, hstored.imp hI⟩

theorem Out.imp {I' : StoreInvariant σ} {o : RunOutcome}
    {s : RunState σ} (h : Out I b o s) (hI : ∀ d ms store, I d ms store → I' d ms store) :
    Out I' b o s := by
  obtain ⟨sent, added, hsent, hmessages, hphase, hstored, hterm⟩ := h
  exact ⟨sent, added, hsent, hmessages, hphase, hstored.imp hI, hterm⟩

/-- Publishing an event extends the published turn just when the event is accepted. -/
theorem publish_spec {phase' : Phase} {I' : StoreInvariant σ}
    (event : AgentEvent) (extend : PublishedTurn → PublishedTurn)
    (h : ∀ {sent added p}, phase.Holds sent added p →
      phase'.Holds (sent ++ [⟨event, true⟩]) added (extend p))
    (hI : ∀ d ms store, I d ms store → I' (d.1 ++ (⟨event, true⟩ : Delivery).thinking,
      d.2 ++ (⟨event, true⟩ : Delivery).text) ms store)
    (hrefused : (⟨event, false⟩ : Delivery).IsSilent)
    (hkind : ∀ accepted, (⟨event, accepted⟩ : Delivery).terminalKind = none) :
    Triple (In I b phase)
      (do
        sendOrCancel event
        modify fun s => s.setPublished (extend s.progress.published))
      (fun _ => In I' b phase') (Out I b) := by
  let A' : Ledger σ → Prop := fun l => At I' b phase' { l with published := extend l.published }
  refine Triple.seq (M := fun s => A' s.ledger) (sendOrCancel_spec (A := At I b phase)
    (fun _ => id) hrefused (hkind false) ?_) (Triple.update fun _ => id)
  rintro l ⟨sent, added, hsent, hmessages, hphase, hterm, hle, hstored⟩
  refine ⟨sent ++ [⟨event, true⟩], added, ?_, hmessages, h hphase, ?_, hle, ?_⟩
  · rw [← List.append_assoc, ← hsent]
  · rw [terminalsOf_concat, hterm, hkind]
    rfl
  · have hdrafts : draftsOf (l.sent ++ [⟨event, true⟩]) = ((draftsOf l.sent).1 ++
        (⟨event, true⟩ : Delivery).thinking, (draftsOf l.sent).2 ++
        (⟨event, true⟩ : Delivery).text) := by simp [draftsOf]
    dsimp only
    rw [hdrafts]
    exact hI _ _ _ hstored

theorem publishThinking_spec {I' : StoreInvariant σ}
    (released : Option Text)
    (hI : ∀ d ms store, I d ms store → I' (d.1 ++ released.getD [], d.2) ms store) :
    Triple (In I b .drafting) (publishThinking released) (fun _ => In I' b .drafting)
      (Out I b) := by
  cases released with
  | none => exact Triple.ret fun s hs => hs.imp fun d ms store h => by simpa using hI d ms store h
  | some text =>
    refine publish_spec (.thinking text) (fun p => { p with thinking := p.thinking ++ text }) ?_
      (fun d ms store h => by simpa [Delivery.thinking, Delivery.text] using hI d ms store h)
      ⟨rfl, rfl, rfl, rfl⟩ fun _ => rfl
    rintro sent added p ⟨ht, hx, hnone, hcalls, hreset, hms⟩
    exact ⟨by simp [ht, Delivery.thinking], by simp [hx, Delivery.text], hnone,
      by simp [hcalls, Delivery.isCalls], by simp [hreset, Delivery.isReset], hms⟩

theorem publishText_spec {I' : StoreInvariant σ}
    (released : Option Text)
    (hI : ∀ d ms store, I d ms store → I' (d.1, d.2 ++ released.getD []) ms store) :
    Triple (In I b .drafting) (publishText released) (fun _ => In I' b .drafting)
      (Out I b) := by
  cases released with
  | none => exact Triple.ret fun s hs => hs.imp fun d ms store h => by simpa using hI d ms store h
  | some text =>
    refine publish_spec (.text text) (fun p => { p with text := p.text ++ text }) ?_
      (fun d ms store h => by simpa [Delivery.thinking, Delivery.text] using hI d ms store h)
      ⟨rfl, rfl, rfl, rfl⟩ fun _ => rfl
    rintro sent added p ⟨ht, hx, hnone, hcalls, hreset, hms⟩
    exact ⟨by simp [ht, Delivery.thinking], by simp [hx, Delivery.text], hnone,
      by simp [hcalls, Delivery.isCalls], by simp [hreset, Delivery.isReset], hms⟩

theorem admitDelta_spec (l : StreamState) (added : ℕ) (afterFinish : Text) :
    Triple (In I b .drafting) (admitDelta l added afterFinish) (fun _ => In I b .drafting)
      (Out I b) := by
  refine Triple.choose (fun _ => failProtocol_spec _) fun _ => ?_
  exact Triple.optional fun _ => failProtocol_spec _

/-! Assertions that do not mention the drafts hold through the stream. -/

variable {J : List ChatMessage → σ → Prop}

theorem onStreamEvent_spec (l : StreamState) (event : StreamEvent) :
    Triple (In (fun _ => J) b .drafting) (onStreamEvent l event)
      (fun _ => In (fun _ => J) b .drafting) (Out (fun _ => J) b) := by
  cases event with
  | thinking t =>
    refine Triple.seq (admitDelta_spec _ _ _) ?_
    cases l.pushThinking t with
    | error e => exact failProtocol_spec _
    | ok r => exact Triple.seq (publishThinking_spec _ fun _ _ _ => id) (Triple.ret fun _ => id)
  | text t =>
    refine Triple.seq (admitDelta_spec _ _ _) ?_
    cases l.pushText t with
    | error e => exact failProtocol_spec _
    | ok r => exact Triple.seq (publishText_spec _ fun _ _ _ => id) (Triple.ret fun _ => id)
  | assistantDelta thinking text =>
    refine Triple.seq (admitDelta_spec _ _ _) ?_
    cases l.pushDelta thinking text with
    | error e => exact failProtocol_spec _
    | ok r =>
      exact Triple.seq (publishThinking_spec _ fun _ _ _ => id)
        (Triple.seq (publishText_spec _ fun _ _ _ => id) (Triple.ret fun _ => id))
  | toolCallDelta d =>
    refine Triple.choose (fun _ => failProtocol_spec _) fun _ => ?_
    cases l.toolAcc.push d with
    | error e => exact failProtocol_spec _
    | ok acc => exact Triple.ret fun _ => id
  | usage u => exact Triple.seq (modify_spec fun _ => rfl) (Triple.ret fun _ => id)
  | finish reason =>
    exact Triple.choose (fun _ => failProtocol_spec _) fun _ => Triple.ret fun _ => id

theorem consumeStream_spec (l : StreamState) (events : List (Except Text StreamEvent)) :
    Triple (In (fun _ => J) b .drafting) (consumeStream l events)
      (fun _ => In (fun _ => J) b .drafting) (Out (fun _ => J) b) := by
  have hclosed : Triple (In (fun _ => J) b .drafting) closedOrCancel
      (fun _ => In (fun _ => J) b .drafting) (Out (fun _ => J) b) :=
    closedOrCancel_spec fun _ => At.live
  induction events generalizing l with
  | nil => exact Triple.seq hclosed (Triple.ret fun _ => id)
  | cons item events ih =>
    cases item with
    | error e => exact Triple.seq hclosed (fail_drafting e)
    | ok event => exact Triple.seq hclosed (Triple.bind (onStreamEvent_spec l event) ih)

end
end DeepseekScience.Agent
