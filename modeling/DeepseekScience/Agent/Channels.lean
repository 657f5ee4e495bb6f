import DeepseekScience.Agent.Runner

/-! The two channels of a provider stream. A `<` in either channel ends the provisional
publication of both; the invariant ties the guards of the stream loop to what was received. -/
namespace DeepseekScience

namespace StreamEvent

def reasoning : StreamEvent → Text
  | .thinking t => t
  | .assistantDelta t _ => t
  | _ => []

def answer : StreamEvent → Text
  | .text t => t
  | .assistantDelta _ t => t
  | _ => []

/-- A delta of one of the two channels, or of both. -/
def isDelta : StreamEvent → Bool
  | .thinking _ | .text _ | .assistantDelta .. => true
  | _ => false

/-- The event carries a `<` in one of its fields. -/
def carriesLt (e : StreamEvent) : Bool := decide ('<' ∈ e.reasoning) || decide ('<' ∈ e.answer)

theorem carriesLt_iff (e : StreamEvent) :
    e.carriesLt = true ↔ '<' ∈ e.reasoning ∨ '<' ∈ e.answer := by
  simp [carriesLt]

theorem carriesLt_thinking (t : Text) : (thinking t).carriesLt = true ↔ '<' ∈ t := by
  simp [carriesLt_iff, reasoning, answer]

theorem carriesLt_text (t : Text) : (text t).carriesLt = true ↔ '<' ∈ t := by
  simp [carriesLt_iff, reasoning, answer]

/-- What an event with a `<` may still release of its reasoning: a plain reasoning event is
released up to the `<`, a combined delta not at all. -/
def releasableReasoning : StreamEvent → Text
  | .thinking t => Dsml.plainPrefix t
  | _ => []

def releasableAnswer : StreamEvent → Text
  | .text t => Dsml.plainPrefix t
  | _ => []

end StreamEvent

namespace Agent

open Dsml

/-- Concatenate `whole` of the events in front of the first one with `stop`, and `cut` of it. -/
def upTo (stop : StreamEvent → Bool) (cut whole : StreamEvent → Text) : List StreamEvent → Text
  | [] => []
  | e :: events => if stop e then cut e else whole e ++ upTo stop cut whole events

def reasoningOf (events : List StreamEvent) : Text := events.flatMap StreamEvent.reasoning

def answerOf (events : List StreamEvent) : Text := events.flatMap StreamEvent.answer

/-- The reasoning that may be delivered before both channels have passed the parse. -/
def provisionalReasoning : List StreamEvent → Text :=
  upTo StreamEvent.carriesLt StreamEvent.releasableReasoning StreamEvent.reasoning

def provisionalAnswer : List StreamEvent → Text :=
  upTo StreamEvent.carriesLt StreamEvent.releasableAnswer StreamEvent.answer

/-- The reasoning received before the event with the first `<` of the answer. -/
def reasoningBeforeAnswerLt : List StreamEvent → Text :=
  upTo (fun e => decide ('<' ∈ e.answer)) (fun _ => []) StreamEvent.reasoning

section
variable {stop : StreamEvent → Bool} {cut whole : StreamEvent → Text} {events : List StreamEvent}

theorem upTo_of_forall (h : events.any stop = false) :
    upTo stop cut whole events = events.flatMap whole := by
  induction events with
  | nil => rfl
  | cons e events ih =>
    obtain ⟨he, hrest⟩ := Bool.or_eq_false_iff.mp h
    simp [upTo, he, ih hrest]

theorem upTo_append_of_any (h : events.any stop = true) (more : List StreamEvent) :
    upTo stop cut whole (events ++ more) = upTo stop cut whole events := by
  induction events with
  | nil => simp at h
  | cons e events ih =>
    cases he : stop e with
    | true => simp [upTo, he]
    | false =>
      have hrest : events.any stop = true := by simpa [he] using h
      simp [upTo, he, ih hrest]

theorem upTo_append_of_forall (h : events.any stop = false) (more : List StreamEvent) :
    upTo stop cut whole (events ++ more) = events.flatMap whole ++ upTo stop cut whole more := by
  induction events with
  | nil => rfl
  | cons e events ih =>
    obtain ⟨he, hrest⟩ := Bool.or_eq_false_iff.mp h
    simp [upTo, he, ih hrest]

theorem upTo_prefix_append (more : List StreamEvent) :
    upTo stop cut whole events <+: upTo stop cut whole (events ++ more) := by
  cases h : events.any stop with
  | true => rw [upTo_append_of_any h]
  | false =>
    rw [upTo_append_of_forall h, upTo_of_forall h]
    exact List.prefix_append ..

/-- A cut that releases no more than the whole stays a prefix of the channel. -/
theorem upTo_prefix_flatMap (hcut : ∀ e, cut e <+: whole e) :
    upTo stop cut whole events <+: events.flatMap whole := by
  induction events with
  | nil => exact List.nil_prefix
  | cons e events ih =>
    rw [upTo, List.flatMap_cons]
    split_ifs
    · exact (hcut e).trans (List.prefix_append ..)
    · exact (List.prefix_append_right_inj _).mpr ih

end

theorem releasableReasoning_isPrefix (e : StreamEvent) :
    e.releasableReasoning <+: e.reasoning := by
  cases e with
  | thinking t => exact plainPrefix_isPrefix t
  | _ => exact List.nil_prefix

theorem releasableAnswer_isPrefix (e : StreamEvent) : e.releasableAnswer <+: e.answer := by
  cases e with
  | text t => exact plainPrefix_isPrefix t
  | _ => exact List.nil_prefix

/-- Provisional reasoning was received before the first `<` of the answer. -/
theorem provisionalReasoning_isPrefix (events : List StreamEvent) :
    provisionalReasoning events <+: reasoningBeforeAnswerLt events := by
  induction events with
  | nil => exact List.nil_prefix
  | cons e events ih =>
    unfold provisionalReasoning reasoningBeforeAnswerLt at *
    simp only [upTo, StreamEvent.carriesLt, Bool.or_eq_true]
    by_cases hanswer : '<' ∈ e.answer
    · have hcut : e.releasableReasoning = [] := by
        cases e with
        | thinking t => simp [StreamEvent.answer] at hanswer
        | _ => rfl
      simp [hanswer, hcut]
    · by_cases hreasoning : '<' ∈ e.reasoning
      · simp only [hreasoning, hanswer, decide_true, decide_false, true_or, if_true,
          Bool.false_eq_true, if_false]
        exact (releasableReasoning_isPrefix e).trans (List.prefix_append ..)
      · simp only [hreasoning, hanswer, decide_false, Bool.false_eq_true, or_self, if_false]
        exact (List.prefix_append_right_inj _).mpr ih

theorem carriesLt_false {events : List StreamEvent}
    (h : events.any StreamEvent.carriesLt = false) :
    '<' ∉ reasoningOf events ∧ '<' ∉ answerOf events := by
  simp only [List.any_eq_false, StreamEvent.carriesLt, Bool.or_eq_true, decide_eq_true_eq,
    not_or] at h
  refine ⟨fun hm => ?_, fun hm => ?_⟩
  · obtain ⟨e, he, hlt⟩ := List.mem_flatMap.mp hm
    exact (h e he).1 hlt
  · obtain ⟨e, he, hlt⟩ := List.mem_flatMap.mp hm
    exact (h e he).2 hlt

theorem reasoningOf_append (events more : List StreamEvent) :
    reasoningOf (events ++ more) = reasoningOf events ++ reasoningOf more :=
  List.flatMap_append ..

theorem answerOf_append (events more : List StreamEvent) :
    answerOf (events ++ more) = answerOf events ++ answerOf more := List.flatMap_append ..

theorem reasoningOf_concat (events : List StreamEvent) (e : StreamEvent) :
    reasoningOf (events ++ [e]) = reasoningOf events ++ e.reasoning := by
  simp [reasoningOf]

theorem answerOf_concat (events : List StreamEvent) (e : StreamEvent) :
    answerOf (events ++ [e]) = answerOf events ++ e.answer := by
  simp [answerOf]

/-- The state of the stream loop after it has received `events` and released `rt` and `rx`. -/
structure Guarded (events : List StreamEvent) (l : StreamState) (rt rx : Text) : Prop where
  reasoning : Scanned l.thinkingGuard rt
  answer : Scanned l.textGuard rx
  reasoningText : l.thinkingGuard.text = reasoningOf events
  answerText : l.textGuard.text = answerOf events
  frozen : events.any StreamEvent.carriesLt = true →
    l.thinkingGuard.publicationFrozen = true ∧ l.textGuard.publicationFrozen = true
  cutoff : l.thinkingLenAtTextFirstLt =
    if '<' ∈ answerOf events then some (byteLen (reasoningBeforeAnswerLt events)) else none
  provisional : rt <+: provisionalReasoning events ∧ rx <+: provisionalAnswer events

theorem Guarded.new : Guarded [] {} [] [] :=
  ⟨Scanned.new, Scanned.new, rfl, rfl, by simp, by simp [answerOf], List.nil_prefix,
    List.nil_prefix⟩

/-- What an accepted push has done. -/
theorem push_ok {g g' : IncrementalAssistantTextGuard} {released chunk : Text}
    {out : Option Text} (h : Scanned g released) (hpush : g.push chunk = .ok (out, g')) :
    Scanned g' (released ++ out.getD []) ∧ g'.text = g.text ++ chunk ∧
      (g.publicationFrozen = true → out = none ∧ g'.publicationFrozen = true) := by
  have hlen : byteLen (g.text ++ chunk) ≤ maxAssistantTextBytes := by
    rw [IncrementalAssistantTextGuard.push] at hpush
    split_ifs at hpush with hlt
    rw [byteLen_append]
    omega
  obtain ⟨out', g'', heq, hscan, htext, -, hfrozen⟩ := push_spec h hlen
  rw [hpush, Except.ok.injEq, Prod.mk.injEq] at heq
  obtain ⟨rfl, rfl⟩ := heq
  exact ⟨hscan, htext, hfrozen⟩

/-- A guard with a `<` in its buffer has stopped publication. -/
theorem frozen_of_mem {g : IncrementalAssistantTextGuard} {released : Text}
    (h : Scanned g released) (hlt : '<' ∈ g.text) : g.publicationFrozen = true :=
  h.frozen (by simpa [h.observed] using hlt)

theorem mem_answerOf {events : List StreamEvent} :
    '<' ∈ answerOf events ↔ events.any (fun e => decide ('<' ∈ e.answer)) = true := by
  simp [answerOf, List.mem_flatMap]

section
variable {events : List StreamEvent} {l l' : StreamState} {rt rx : Text}

/-- The cutoff is set at the event with the first `<` of the answer, and then kept. -/
theorem cutoff_concat (h : Guarded events l rt rx) (e : StreamEvent)
    {g : IncrementalAssistantTextGuard}
    (hobserved : g.observedRawLt = decide ('<' ∈ answerOf (events ++ [e]))) :
    (if !l.textGuard.observedRawLt && g.observedRawLt then some l.thinkingGuard.bufferedLen
      else l.thinkingLenAtTextFirstLt) =
      if '<' ∈ answerOf (events ++ [e]) then
        some (byteLen (reasoningBeforeAnswerLt (events ++ [e]))) else none := by
  have hbefore := h.answer.observed
  rw [h.answerText] at hbefore
  rw [hbefore, hobserved, h.cutoff, answerOf_concat]
  by_cases hlt : '<' ∈ answerOf events
  · have hsame : reasoningBeforeAnswerLt (events ++ [e]) = reasoningBeforeAnswerLt events :=
      upTo_append_of_any (mem_answerOf.mp hlt) _
    simp [hlt, hsame]
  · have hnone := Bool.eq_false_iff.mpr fun hany => hlt (mem_answerOf.mpr hany)
    by_cases he : '<' ∈ e.answer
    · have hsplit : reasoningBeforeAnswerLt (events ++ [e]) = reasoningOf events := by
        rw [reasoningBeforeAnswerLt, upTo_append_of_forall hnone]
        simp [upTo, he, reasoningOf]
      simp [hlt, he, hsplit, IncrementalAssistantTextGuard.bufferedLen, h.reasoningText]
    · simp [hlt, he]

theorem provisional_frozen (hany : events.any StreamEvent.carriesLt = true) (e : StreamEvent) :
    provisionalReasoning (events ++ [e]) = provisionalReasoning events ∧
      provisionalAnswer (events ++ [e]) = provisionalAnswer events :=
  ⟨upTo_append_of_any hany _, upTo_append_of_any hany _⟩

theorem provisional_open (hany : events.any StreamEvent.carriesLt = false) (e : StreamEvent) :
    provisionalReasoning (events ++ [e]) = reasoningOf events ++
        (if e.carriesLt then e.releasableReasoning else e.reasoning) ∧
      provisionalAnswer (events ++ [e]) = answerOf events ++
        (if e.carriesLt then e.releasableAnswer else e.answer) := by
  constructor
  · rw [provisionalReasoning, upTo_append_of_forall hany]
    simp [upTo, reasoningOf]
  · rw [provisionalAnswer, upTo_append_of_forall hany]
    simp [upTo, answerOf]

theorem Guarded.pushThinking (h : Guarded events l rt rx) {t : Text} {out : Option Text}
    (hpush : l.pushThinking t = .ok (out, l')) :
    Guarded (events ++ [.thinking t]) l' (rt ++ out.getD []) rx := by
  unfold StreamState.pushThinking at hpush
  rcases hg : l.thinkingGuard.push t with e | ⟨out', g⟩
  · simp [hg, Except.map] at hpush
  simp only [hg, Except.map, Except.ok.injEq, Prod.mk.injEq] at hpush
  obtain ⟨rfl, rfl⟩ := hpush
  obtain ⟨hscan, htext, hfrozen⟩ := push_ok h.reasoning hg
  rw [h.reasoningText] at htext
  have hanswer : answerOf (events ++ [.thinking t]) = answerOf events := by
    rw [answerOf_concat]
    exact List.append_nil _
  refine ⟨hscan, ?_, ?_, ?_, ?_, ?_, ?_, ?_⟩
  · dsimp only
    split_ifs
    · exact h.answer.freezePublication
    · exact h.answer
  · rw [htext, reasoningOf_concat]
    rfl
  · dsimp only
    rw [hanswer]
    split_ifs <;> exact h.answerText
  · intro hany
    have hg' : g.publicationFrozen = true := by
      rw [List.any_append, Bool.or_eq_true] at hany
      rcases hany with hany | hany
      · exact (hfrozen (h.frozen hany).1).2
      · refine frozen_of_mem hscan ?_
        rw [htext]
        refine List.mem_append_right _ ((StreamEvent.carriesLt_thinking t).mp ?_)
        simpa using hany
    exact ⟨hg', by simp [hg', IncrementalAssistantTextGuard.freezePublication]⟩
  · have := cutoff_concat h (.thinking t) (g := l.textGuard)
      (by rw [hanswer, h.answer.observed, h.answerText])
    simpa using this
  · cases hany : events.any StreamEvent.carriesLt with
    | true =>
      rw [(provisional_frozen hany _).1, (hfrozen (h.frozen hany).1).1]
      simpa using h.provisional.1
    | false =>
      have hplain : provisionalReasoning (events ++ [.thinking t]) = plainPrefix g.text := by
        rw [(provisional_open hany _).1, htext, plainPrefix_append (carriesLt_false hany).1]
        simp only [StreamEvent.carriesLt_thinking]
        split_ifs with hlt
        · rfl
        · rw [plainPrefix_of_notMem hlt]
          rfl
      rw [hplain]
      exact hscan.isPrefix
  · exact h.provisional.2.trans (upTo_prefix_append _)

theorem Guarded.pushText (h : Guarded events l rt rx) {t : Text} {out : Option Text}
    (hpush : l.pushText t = .ok (out, l')) :
    Guarded (events ++ [.text t]) l' rt (rx ++ out.getD []) := by
  unfold StreamState.pushText at hpush
  rcases hg : l.textGuard.push t with e | ⟨out', g⟩
  · simp [hg, Except.map] at hpush
  simp only [hg, Except.map, Except.ok.injEq, Prod.mk.injEq] at hpush
  obtain ⟨rfl, rfl⟩ := hpush
  obtain ⟨hscan, htext, hfrozen⟩ := push_ok h.answer hg
  rw [h.answerText] at htext
  have hreasoning : reasoningOf (events ++ [.text t]) = reasoningOf events := by
    rw [reasoningOf_concat]
    exact List.append_nil _
  refine ⟨?_, hscan, ?_, ?_, ?_, ?_, ?_, ?_⟩
  · dsimp only
    split_ifs
    · exact h.reasoning.freezePublication
    · exact h.reasoning
  · dsimp only
    rw [hreasoning]
    split_ifs <;> exact h.reasoningText
  · rw [htext, answerOf_concat]
    rfl
  · intro hany
    have hg' : g.publicationFrozen = true := by
      rw [List.any_append, Bool.or_eq_true] at hany
      rcases hany with hany | hany
      · exact (hfrozen (h.frozen hany).2).2
      · refine frozen_of_mem hscan ?_
        rw [htext]
        refine List.mem_append_right _ ((StreamEvent.carriesLt_text t).mp ?_)
        simpa using hany
    exact ⟨by simp [hg', IncrementalAssistantTextGuard.freezePublication], hg'⟩
  · exact cutoff_concat h (.text t) (by rw [hscan.observed, htext, answerOf_concat]; rfl)
  · exact h.provisional.1.trans (upTo_prefix_append _)
  · cases hany : events.any StreamEvent.carriesLt with
    | true =>
      rw [(provisional_frozen hany _).2, (hfrozen (h.frozen hany).2).1]
      simpa using h.provisional.2
    | false =>
      have hplain : provisionalAnswer (events ++ [.text t]) = plainPrefix g.text := by
        rw [(provisional_open hany _).2, htext, plainPrefix_append (carriesLt_false hany).2]
        simp only [StreamEvent.carriesLt_text]
        split_ifs with hlt
        · rfl
        · rw [plainPrefix_of_notMem hlt]
          rfl
      rw [hplain]
      exact hscan.isPrefix

theorem scanned_freezeIf {g : IncrementalAssistantTextGuard} {released : Text}
    (h : Scanned g released) (frozen : Bool) :
    Scanned (if frozen then g.freezePublication else g) released := by
  split_ifs
  · exact h.freezePublication
  · exact h

theorem Guarded.syncFrozen (h : Guarded events l rt rx) : Guarded events l.syncFrozen rt rx := by
  unfold StreamState.syncFrozen
  split_ifs
  · exact ⟨h.reasoning.freezePublication, h.answer.freezePublication, h.reasoningText,
      h.answerText, fun _ => ⟨rfl, rfl⟩, h.cutoff, h.provisional⟩
  · exact h

theorem Guarded.pushDelta (h : Guarded events l rt rx) {t x : Text} {outT outX : Option Text}
    (hpush : l.pushDelta t x = .ok (outT, outX, l')) :
    Guarded (events ++ [.assistantDelta t x]) l' (rt ++ outT.getD []) (rx ++ outX.getD []) := by
  unfold StreamState.pushDelta at hpush
  dsimp only at hpush
  set frozen := (decide ('<' ∈ t) || decide ('<' ∈ x)) with hdef
  rcases hgt : (if frozen then l.thinkingGuard.freezePublication else l.thinkingGuard).push t
    with e | ⟨out, gt⟩
  · simp [hgt] at hpush
  rcases hgx : (if frozen then l.textGuard.freezePublication else l.textGuard).push x
    with e | ⟨out', gx⟩
  · simp [hgt, hgx] at hpush
  simp only [hgt, hgx, Except.ok.injEq, Prod.mk.injEq] at hpush
  obtain ⟨rfl, rfl, rfl⟩ := hpush
  have hcarries : (StreamEvent.assistantDelta t x).carriesLt = frozen := rfl
  have htext : ∀ g : IncrementalAssistantTextGuard,
      (if frozen then g.freezePublication else g).text = g.text := by
    intro g
    split_ifs <;> rfl
  have hstops : ∀ g : IncrementalAssistantTextGuard, frozen = true ∨ g.publicationFrozen = true →
      (if frozen then g.freezePublication else g).publicationFrozen = true := by
    intro g hg
    split_ifs with hf
    · rfl
    · exact hg.resolve_left hf
  obtain ⟨hscanT, htextT, hfrozenT⟩ := push_ok (scanned_freezeIf h.reasoning frozen) hgt
  obtain ⟨hscanX, htextX, hfrozenX⟩ := push_ok (scanned_freezeIf h.answer frozen) hgx
  rw [htext, h.reasoningText] at htextT
  rw [htext, h.answerText] at htextX
  refine Guarded.syncFrozen ⟨hscanT, hscanX, ?_, ?_, ?_, ?_, ?_⟩
  · rw [htextT, reasoningOf_concat]
    rfl
  · rw [htextX, answerOf_concat]
    rfl
  · intro hany
    have hstop : frozen = true ∨ events.any StreamEvent.carriesLt = true := by
      simpa [hcarries, or_comm] using hany
    refine ⟨(hfrozenT (hstops _ ?_)).2, (hfrozenX (hstops _ ?_)).2⟩
    · exact hstop.imp_right fun hany => (h.frozen hany).1
    · exact hstop.imp_right fun hany => (h.frozen hany).2
  · exact cutoff_concat h (.assistantDelta t x)
      (by rw [hscanX.observed, htextX, answerOf_concat]; rfl)
  · cases hany : events.any StreamEvent.carriesLt with
    | true =>
      rw [(provisional_frozen hany _).1, (provisional_frozen hany _).2,
        (hfrozenT (hstops _ (Or.inr (h.frozen hany).1))).1,
        (hfrozenX (hstops _ (Or.inr (h.frozen hany).2))).1]
      simpa using h.provisional
    | false =>
      rw [(provisional_open hany _).1, (provisional_open hany _).2, hcarries]
      cases hf : frozen with
      | true =>
        rw [(hfrozenT (hstops _ (Or.inl hf))).1, (hfrozenX (hstops _ (Or.inl hf))).1]
        have := h.provisional
        rw [provisionalReasoning, provisionalAnswer, upTo_of_forall hany,
          upTo_of_forall hany] at this
        simpa [StreamEvent.releasableReasoning, StreamEvent.releasableAnswer, reasoningOf,
          answerOf] using this
      | false =>
        refine ⟨?_, ?_⟩
        · have hpre := hscanT.isPrefix.trans (plainPrefix_isPrefix _)
          rw [htextT] at hpre
          exact hpre
        · have hpre := hscanX.isPrefix.trans (plainPrefix_isPrefix _)
          rw [htextX] at hpre
          exact hpre

/-- An event of another kind changes neither channel. -/
theorem Guarded.other (h : Guarded events l rt rx) {e : StreamEvent} (ht : e.reasoning = [])
    (hx : e.answer = []) (hg : l'.thinkingGuard = l.thinkingGuard ∧ l'.textGuard = l.textGuard ∧
      l'.thinkingLenAtTextFirstLt = l.thinkingLenAtTextFirstLt) :
    Guarded (events ++ [e]) l' rt rx := by
  obtain ⟨hgt, hgx, hcut⟩ := hg
  have hcarries : e.carriesLt = false := by
    simp [StreamEvent.carriesLt, ht, hx]
  have hanswer : answerOf (events ++ [e]) = answerOf events := by
    rw [answerOf_concat, hx, List.append_nil]
  refine ⟨hgt ▸ h.reasoning, hgx ▸ h.answer, ?_, ?_, ?_, ?_, ?_, ?_⟩
  · rw [hgt, h.reasoningText, reasoningOf_concat, ht, List.append_nil]
  · rw [hgx, h.answerText, hanswer]
  · intro hany
    rw [hgt, hgx]
    refine h.frozen ?_
    simpa [hcarries] using hany
  · have := cutoff_concat h e (g := l.textGuard)
      (by rw [hanswer, h.answer.observed, h.answerText])
    rw [hcut]
    simpa using this
  · exact h.provisional.1.trans (upTo_prefix_append _)
  · exact h.provisional.2.trans (upTo_prefix_append _)

end

end Agent
end DeepseekScience
