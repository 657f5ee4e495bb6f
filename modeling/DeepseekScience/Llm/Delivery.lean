import DeepseekScience.Llm.Decoder
import DeepseekScience.Llm.Requests

/-! What a streamed request comes to, whatever the network answers: a bounded number of equal
requests with bounded pauses between them, and at most one answer whose events are passed on, all
of them and in their order. -/
namespace DeepseekScience.Llm

open Attempts Redaction

section
/-! Delays. -/

theorem exponentialBackoff_le (attempt : ℕ) : exponentialBackoff attempt ≤ maxRetryDelay :=
  Nat.min_le_right _ _

/-- A delay is always found, within its cap. -/
theorem retryDelay_ok (retryAfter : Option Text) (now : Int64) (attempt : ℕ) :
    ∃ delay, retryDelay retryAfter now attempt = .ok delay ∧ delay ≤ maxRetryDelay := by
  cases retryAfter with
  | none => exact ⟨_, rfl, exponentialBackoff_le attempt⟩
  | some value =>
    simp only [retryDelay]
    cases hnumber : RetryAfter.parseU64 (trim value) with
    | some seconds =>
      rw [RetryAfter.boundedRetryAfter_number hnumber]
      refine ⟨_, rfl, Nat.mul_le_mul_left 1000 (Nat.min_le_right _ _)⟩
    | none =>
      obtain hdate | ⟨target, hdate, -⟩ := RetryAfter.parse_cases (trim value)
      · rw [RetryAfter.boundedRetryAfter_other hnumber hdate]
        exact ⟨_, rfl, exponentialBackoff_le attempt⟩
      · rw [RetryAfter.boundedRetryAfter_date hdate]
        exact ⟨_, rfl, Nat.mul_le_mul_left 1000 (RetryAfter.cappedDelay_le _)⟩

theorem checkStatus_failed (status : ℕ) (body : List Arrival) :
    ∃ message, checkStatus status body = .failed (.api status message) ∧
      message.length ≤ errorBodyCharLimit := by
  obtain ⟨message, hmessage, hlength⟩ := errorBodySnippet_ok body
  exact ⟨message, by simp [checkStatus, hmessage], hlength⟩

end

variable {network : Network} {json : SerdeJson} {jsonError : Text → Text} {body : Json}
  {stream : Bool} {attempt : ℕ} {wire wire' : Wire}

/-- An answer behind which the request is sent once more. -/
def Passing (network : Network) : Answer → Prop
  | .response status _ _ => isSuccess status = false ∧ isRetryableStatus status = true
  | .failed message => isRetryableTransport (network.kind message) = true
  | .silent => True

/-- What one request comes to. -/
inductive Sent (network : Network) (answer : Answer) : Verdict (List Arrival) Stop → Prop
  | answered {status : ℕ} {retryAfter : Option Text} {arrivals : List Arrival}
    (hanswer : answer = .response status retryAfter arrivals) (hsuccess : isSuccess status = true) :
    Sent network answer (.done arrivals)
  | refused {e : ClientError} (hrefused : ∀ status retryAfter arrivals,
      answer = .response status retryAfter arrivals → isSuccess status = false) :
    Sent network answer (.fail (.failed e))
  | passing {e : ClientError} {delay : ℕ} (hpassing : Passing network answer)
    (hdelay : delay ≤ maxRetryDelay) : Sent network answer (.again delay (.failed e))

theorem sendOnce_wire (network : Network) (body : Json) (stream : Bool) (attempt : ℕ)
    (wire : Wire) : (sendOnce network body stream attempt wire).2 =
      ⟨wire.asked + 1, wire.acts ++ [.request body]⟩ := by
  unfold sendOnce
  simp only
  split
  · split
    · rfl
    · split
      · split <;> rfl
      · rfl
  · split <;> rfl
  · rfl

theorem sendOnce_sent (network : Network) (body : Json) (stream : Bool) (attempt : ℕ)
    (wire : Wire) :
    Sent network (network.answers wire.asked) (sendOnce network body stream attempt wire).1 := by
  unfold sendOnce
  generalize network.answers wire.asked = answer
  cases answer with
  | response status retryAfter arrivals =>
    obtain ⟨message, hmessage, -⟩ := checkStatus_failed status arrivals
    obtain ⟨delay, hdelay, hcap⟩ := retryDelay_ok retryAfter (network.now wire.asked) attempt
    cases hsuccess : isSuccess status with
    | true => simpa [hsuccess] using Sent.answered rfl hsuccess
    | false =>
      cases hretryable : isRetryableStatus status with
      | true =>
        have hpassing : Passing network (.response status retryAfter arrivals) :=
          ⟨hsuccess, hretryable⟩
        simpa [hsuccess, hretryable, hdelay, hmessage] using Sent.passing hpassing hcap
      | false =>
        simp only [hsuccess, hretryable, hmessage, Bool.false_eq_true, ↓reduceIte]
        refine .refused ?_
        rintro _ _ _ ⟨⟩
        exact hsuccess
  | failed message =>
    cases hretryable : isRetryableTransport (network.kind message) with
    | true =>
      have hpassing : Passing network (.failed message) := hretryable
      simpa [hretryable] using Sent.passing hpassing (exponentialBackoff_le attempt)
    | false =>
      simp only [hretryable, Bool.false_eq_true, ↓reduceIte]
      exact .refused (by simp)
  | silent => exact .passing trivial (exponentialBackoff_le _)

section
/-! What is sent. -/

/-- A request, and as often as there are delays a pause and the request again. -/
def exchange (body : Json) (delays : List ℕ) : List Act :=
  .request body :: delays.flatMap fun delay => [.sleep delay, .request body]

/-- The client has gone on by an exchange with bounded delays. -/
def Exchanged (body : Json) (wire wire' : Wire) : Prop :=
  ∃ delays, wire'.acts = wire.acts ++ exchange body delays ∧
    wire'.asked = wire.asked + delays.length + 1 ∧ ∀ delay ∈ delays, delay ≤ maxRetryDelay

theorem Exchanged.pause {wire'' : Wire} {delay : ℕ} (h : Exchanged body wire wire')
    (hdelay : delay ≤ maxRetryDelay) (h' : Exchanged body (pause delay wire') wire'') :
    Exchanged body wire wire'' := by
  obtain ⟨delays, hacts, hasked, hcap⟩ := h
  obtain ⟨delays', hacts', hasked', hcap'⟩ := h'
  refine ⟨delays ++ delay :: delays', ?_, ?_, ?_⟩
  · simp [hacts', hacts, Llm.pause, exchange]
  · simp [hasked', hasked, Llm.pause]
    omega
  · simp only [List.mem_append, List.mem_cons]
    rintro d (hd | rfl | hd)
    · exact hcap d hd
    · exact hdelay
    · exact hcap' d hd

theorem Exchanged.asked (h : Exchanged body wire wire') : wire.asked < wire'.asked := by
  obtain ⟨delays, -, hasked, -⟩ := h
  omega

theorem sendOnce_exchanged (network : Network) (body : Json) (stream : Bool) (attempt : ℕ)
    (wire : Wire) : Exchanged body wire (sendOnce network body stream attempt wire).2 := by
  rw [sendOnce_wire]
  exact ⟨[], rfl, rfl, by simp⟩

theorem delay_of_sent {answer : Answer} {delay : ℕ} {stop : Stop}
    (h : Sent network answer (.again delay stop)) : delay ≤ maxRetryDelay := by
  cases h with
  | passing hpassing hdelay => exact hdelay

theorem sendWithRetry_exchanged (network : Network) (body : Json) (stream : Bool) (wire : Wire) :
    Exchanged body wire (sendWithRetry network body stream wire).2 := by
  refine loop_rule (P := fun wire _ wire' => Exchanged body wire wire') ?_ ?_ ?_ ?_ _ _ _
  · intro n wire a wire' h
    simpa [h] using sendOnce_exchanged network body stream n wire
  · intro n wire e wire' h
    simpa [h] using sendOnce_exchanged network body stream n wire
  · intro n wire delay e wire' h
    simpa [h] using sendOnce_exchanged network body stream n wire
  · intro n wire delay e wire' _ wire'' h hrest
    have hsent := sendOnce_sent network body stream n wire
    have honce := sendOnce_exchanged network body stream n wire
    rw [h] at hsent honce
    exact honce.pause (delay_of_sent hsent) hrest

end

section
/-! What is answered. -/

/-- The requests from the first one up to the last: what holds of the answers in front of the last
one, and of the last. -/
structure History (answers : ℕ → Answer) (Earlier Final : Answer → Prop) (first last : ℕ) : Prop where
  asked : first < last
  earlier : ∀ n, first ≤ n → n + 1 < last → Earlier (answers n)
  final : Final (answers (last - 1))

variable {answers : ℕ → Answer} {Earlier Earlier' Final Final' : Answer → Prop}
  {first middle last : ℕ}

theorem History.one (h : Final (answers first)) : History answers Earlier Final first (first + 1) :=
  ⟨Nat.lt_succ_self _, fun n _ _ => by omega, h⟩

theorem History.mono (h : History answers Earlier Final first last)
    (hearlier : ∀ a, Earlier a → Earlier' a) (hfinal : ∀ a, Final a → Final' a) :
    History answers Earlier' Final' first last :=
  ⟨h.asked, fun n hn hlast => hearlier _ (h.earlier n hn hlast), hfinal _ h.final⟩

theorem History.append (h : History answers Earlier Earlier first middle)
    (h' : History answers Earlier Final middle last) : History answers Earlier Final first last := by
  refine ⟨h.asked.trans h'.asked, fun n hn hlast => ?_, h'.final⟩
  obtain hlt | rfl | hge : n + 1 < middle ∨ n = middle - 1 ∨ middle ≤ n := by omega
  · exact h.earlier n hn hlt
  · exact h.final
  · exact h'.earlier n hge hlast

/-- What the last answer is, by the result of the request. -/
def Concludes : Except Stop (List Arrival) → Answer → Prop
  | .ok arrivals, answer =>
    ∃ status retryAfter, answer = .response status retryAfter arrivals ∧ isSuccess status = true
  | .error stop, answer => (∃ e, stop = .failed e) ∧
    ∀ status retryAfter arrivals, answer = .response status retryAfter arrivals →
      isSuccess status = false

theorem Passing.refused {answer : Answer} (h : Passing network answer) :
    ∀ status retryAfter arrivals, answer = .response status retryAfter arrivals →
      isSuccess status = false := by
  rintro status retryAfter arrivals rfl
  exact h.1

theorem sendWithRetry_history (network : Network) (body : Json) (stream : Bool) (wire : Wire) :
    History network.answers (Passing network)
      (Concludes (sendWithRetry network body stream wire).1) wire.asked
      (sendWithRetry network body stream wire).2.asked := by
  refine loop_rule (P := fun (wire : Wire) result (wire' : Wire) =>
    History network.answers (Passing network) (Concludes result) wire.asked wire'.asked)
    ?_ ?_ ?_ ?_ _ _ _
  all_goals
    intro n wire
    have hsent := sendOnce_sent network body stream n wire
    have hwire := sendOnce_wire network body stream n wire
  · intro arrivals wire' h
    rw [h] at hsent hwire
    obtain rfl := hwire
    cases hsent with
    | answered hanswer hsuccess => exact .one ⟨_, _, hanswer, hsuccess⟩
  · intro stop wire' h
    rw [h] at hsent hwire
    obtain rfl := hwire
    cases hsent with
    | refused hrefused => exact .one ⟨⟨_, rfl⟩, hrefused⟩
  · intro delay stop wire' h
    rw [h] at hsent hwire
    obtain rfl := hwire
    cases hsent with
    | passing hpassing hdelay => exact .one ⟨⟨_, rfl⟩, hpassing.refused⟩
  · intro delay stop wire' result wire'' h hrest
    rw [h] at hsent hwire
    obtain rfl := hwire
    cases hsent with
    | passing hpassing hdelay => exact (History.one hpassing).append hrest

variable (network json jsonError)

/-- What an answer tells, up to its end or the first error. -/
def told : Answer → List (Except LlmError StreamEvent)
  | .response status _ arrivals =>
    if isSuccess status then itemsUpToError json jsonError (responseEvents arrivals) else []
  | _ => []

def Eventless (answer : Answer) : Prop := ∀ ev, .ok ev ∉ told json jsonError answer

/-- An answer behind which the request is sent once more: a passing failure, or a success that
breaks off in front of its first event. -/
def Replayable (answer : Answer) : Prop :=
  Passing network answer ∨
    (∃ status retryAfter arrivals, answer = .response status retryAfter arrivals ∧
      isSuccess status = true) ∧
    (told json jsonError answer = [] ∨ ∃ e, told json jsonError answer = [.error e] ∧
      isRetryablePreEventStreamError network e = true)

variable {network json jsonError}

theorem told_of_refused {answer : Answer}
    (h : ∀ status retryAfter arrivals, answer = .response status retryAfter arrivals →
      isSuccess status = false) : told json jsonError answer = [] := by
  cases answer with
  | response status retryAfter arrivals => simp [told, h status retryAfter arrivals rfl]
  | _ => rfl

theorem Replayable.eventless {answer : Answer} (h : Replayable network json jsonError answer) :
    Eventless json jsonError answer := by
  intro ev hev
  obtain hpassing | ⟨-, hnone | ⟨e, herror, -⟩⟩ := h
  · rw [told_of_refused hpassing.refused] at hev
    cases hev
  · rw [hnone] at hev
    cases hev
  · simp [herror] at hev

/-- What the last answer is, by the stream that is handed out. -/
def Delivers (json : SerdeJson) (jsonError : Text → Text) :
    Except Stop (StreamEvent × SseState) → Answer → Prop
  | .ok stream, answer => received json jsonError stream = told json jsonError answer
  | .error stop, answer => (∃ e, stop = .failed e) ∧ Eventless json jsonError answer

/-- What a round of the stream comes to, by its last answer. -/
inductive Streamed (network : Network) (json : SerdeJson) (jsonError : Text → Text)
    (answer : Answer) : Verdict (StreamEvent × SseState) Stop → Prop
  | delivers {stream : StreamEvent × SseState}
    (htold : received json jsonError stream = told json jsonError answer) :
    Streamed network json jsonError answer (.done stream)
  | refused {e : ClientError} (heventless : Eventless json jsonError answer) :
    Streamed network json jsonError answer (.fail (.failed e))
  | replayable {e : ClientError} {delay : ℕ} (hreplayable : Replayable network json jsonError answer)
    (hdelay : delay ≤ maxRetryDelay) :
    Streamed network json jsonError answer (.again delay (.failed e))

theorem streamOnce_streamed (network : Network) (json : SerdeJson) (jsonError : Text → Text)
    (body : Json) (attempt : ℕ) (wire : Wire) :
    History network.answers (Passing network)
        (fun answer => Streamed network json jsonError answer
          (streamOnce network json jsonError body attempt wire).1) wire.asked
        (streamOnce network json jsonError body attempt wire).2.asked ∧
      Exchanged body wire (streamOnce network json jsonError body attempt wire).2 := by
  have hhistory := sendWithRetry_history network body true wire
  have hexchanged := sendWithRetry_exchanged network body true wire
  unfold streamOnce
  split
  · rename_i stop wire' heq
    rw [heq] at hhistory hexchanged
    refine ⟨hhistory.mono (fun _ h => h) ?_, hexchanged⟩
    rintro answer ⟨⟨e, rfl⟩, hrefused⟩
    refine .refused fun ev hev => ?_
    rw [told_of_refused hrefused] at hev
    cases hev
  · rename_i arrivals wire' heq
    rw [heq] at hhistory hexchanged
    have hitems : itemsUpToError json jsonError (responseEvents arrivals) = _ :=
      itemsUpToError_nextItem (responseEvents arrivals)
    have htold : ∀ answer, Concludes (.ok arrivals) answer →
        (∃ status retryAfter arrivals, answer = .response status retryAfter arrivals ∧
          isSuccess status = true) ∧
        told json jsonError answer = itemsUpToError json jsonError (responseEvents arrivals) := by
      rintro answer ⟨status, retryAfter, rfl, hsuccess⟩
      exact ⟨⟨_, _, _, rfl, hsuccess⟩, by simp [told, hsuccess]⟩
    split <;> rename_i hnext <;> rw [hnext] at hitems
    · refine ⟨hhistory.mono (fun _ h => h) fun answer hanswer => .delivers ?_, hexchanged⟩
      rw [(htold answer hanswer).2, hitems]
      rfl
    · split
      · rename_i hretryable
        refine ⟨hhistory.mono (fun _ h => h) fun answer hanswer => ?_, hexchanged⟩
        obtain ⟨hsuccess, hanswerTold⟩ := htold answer hanswer
        exact .replayable (Or.inr ⟨hsuccess, Or.inr ⟨_, hanswerTold.trans hitems, hretryable⟩⟩)
          (exponentialBackoff_le attempt)
      · refine ⟨hhistory.mono (fun _ h => h) fun answer hanswer => .refused fun ev hev => ?_, hexchanged⟩
        simp [(htold answer hanswer).2, hitems] at hev
    · refine ⟨hhistory.mono (fun _ h => h) fun answer hanswer => ?_, hexchanged⟩
      obtain ⟨hsuccess, hanswerTold⟩ := htold answer hanswer
      exact .replayable (Or.inr ⟨hsuccess, Or.inl (hanswerTold.trans hitems)⟩)
        (exponentialBackoff_le attempt)

theorem chatStream_history (network : Network) (json : SerdeJson) (jsonError : Text → Text)
    (body : Json) (wire : Wire) :
    History network.answers (Replayable network json jsonError)
        (Delivers json jsonError (chatStream network json jsonError body wire).1) wire.asked
        (chatStream network json jsonError body wire).2.asked ∧
      Exchanged body wire (chatStream network json jsonError body wire).2 := by
  refine loop_rule (P := fun (wire : Wire) result (wire' : Wire) =>
    History network.answers (Replayable network json jsonError) (Delivers json jsonError result)
      wire.asked wire'.asked ∧ Exchanged body wire wire') ?_ ?_ ?_ ?_ _ _ _
  all_goals
    intro n wire
    have hround := streamOnce_streamed network json jsonError body n wire
  · intro stream wire' h
    rw [h] at hround
    refine ⟨hround.1.mono (fun _ => Or.inl) ?_, hround.2⟩
    rintro answer ⟨htold⟩
    exact htold
  · intro stop wire' h
    rw [h] at hround
    refine ⟨hround.1.mono (fun _ => Or.inl) ?_, hround.2⟩
    rintro answer ⟨⟩
    rename_i heventless
    exact ⟨⟨_, rfl⟩, heventless⟩
  · intro delay stop wire' h
    rw [h] at hround
    refine ⟨hround.1.mono (fun _ => Or.inl) ?_, hround.2⟩
    rintro answer ⟨⟩
    rename_i hreplayable hdelay
    exact ⟨⟨_, rfl⟩, hreplayable.eventless⟩
  · rintro delay stop wire' result wire'' h ⟨hrest, hexchanged⟩
    rw [h] at hround
    obtain ⟨hhistory, hround⟩ := hround
    have hdelay : delay ≤ maxRetryDelay := by
      cases hhistory.final with
      | replayable hreplayable hdelay => exact hdelay
    refine ⟨?_, hround.pause hdelay hexchanged⟩
    refine (hhistory.mono (fun _ => Or.inl) ?_).append hrest
    rintro answer ⟨⟩
    rename_i hreplayable hdelay
    exact hreplayable

/-- Whatever the network answers: the consumer of a stream receives the items of one answer, all of
them and in their order. It is the last one; every answer in front of it was one to try again
behind, and told no event. A request that fails has told none at all, and never panics. -/
theorem chatStream_delivers (network : Network) (json : SerdeJson) (jsonError : Text → Text)
    (body : Json) :
    (∀ n, n + 1 < (chatStream network json jsonError body {}).2.asked →
      Replayable network json jsonError (network.answers n) ∧
        Eventless json jsonError (network.answers n)) ∧
    0 < (chatStream network json jsonError body {}).2.asked ∧
    Delivers json jsonError (chatStream network json jsonError body {}).1
      (network.answers ((chatStream network json jsonError body {}).2.asked - 1)) := by
  obtain ⟨hasked, hearlier, hfinal⟩ := (chatStream_history network json jsonError body {}).1
  refine ⟨fun n hn => ?_, hasked, hfinal⟩
  have hreplayable := hearlier n (Nat.zero_le n) hn
  exact ⟨hreplayable, hreplayable.eventless⟩

theorem pause_asked (delay : ℕ) (wire : Wire) : (pause delay wire).asked = wire.asked := rfl

theorem sendWithRetry_asked (network : Network) (body : Json) (stream : Bool) (wire : Wire) :
    (sendWithRetry network body stream wire).2.asked ≤ wire.asked + maxRequestAttempts :=
  loop_cost Wire.asked 1 (fun n wire => by rw [sendOnce_wire]) pause_asked
    (maxRequestAttempts - 1) 1 wire

theorem streamOnce_asked (network : Network) (json : SerdeJson) (jsonError : Text → Text)
    (body : Json) (attempt : ℕ) (wire : Wire) :
    (streamOnce network json jsonError body attempt wire).2.asked ≤
      wire.asked + maxRequestAttempts := by
  have hsent := sendWithRetry_asked network body true wire
  unfold streamOnce
  split <;> rename_i heq <;> rw [heq] at hsent
  · exact hsent
  · split
    · exact hsent
    · split <;> exact hsent
    · exact hsent

theorem chatStream_asked (network : Network) (json : SerdeJson) (jsonError : Text → Text)
    (body : Json) (wire : Wire) : (chatStream network json jsonError body wire).2.asked ≤
      wire.asked + maxStreamPreflightAttempts * maxRequestAttempts :=
  loop_cost Wire.asked maxRequestAttempts (streamOnce_asked network json jsonError body)
    pause_asked (maxStreamPreflightAttempts - 1) 1 wire

/-- All that a client sends for one stream is the same request, six times at most, with a pause of
ten seconds at most in front of each repetition. -/
theorem chatStream_exchange (network : Network) (json : SerdeJson) (jsonError : Text → Text)
    (body : Json) : ∃ delays,
      (chatStream network json jsonError body {}).2.acts = exchange body delays ∧
      (chatStream network json jsonError body {}).2.asked = delays.length + 1 ∧
      delays.length + 1 ≤ 6 ∧ ∀ delay ∈ delays, delay ≤ 10000 := by
  obtain ⟨delays, hacts, hasked, hcap⟩ := (chatStream_history network json jsonError body {}).2
  have hbound := chatStream_asked network json jsonError body {}
  have hlength : (chatStream network json jsonError body {}).2.asked = delays.length + 1 := by
    simpa using hasked
  refine ⟨delays, by simpa using hacts, hlength, ?_, hcap⟩
  rw [hlength] at hbound
  exact hbound

end

end DeepseekScience.Llm
