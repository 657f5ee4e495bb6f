import DeepseekScience.Lib.Attempts
import DeepseekScience.Llm.ErrorBody
import DeepseekScience.Llm.RetryDelay

/-! Requests to the provider: which failures are tried again and after what delay, up to the first
event of the answer. The network answers whatever it likes. -/
namespace DeepseekScience.Llm

open Attempts Redaction

def maxRequestAttempts : ℕ := 3

def maxStreamPreflightAttempts : ℕ := 2

/-- Delays are in milliseconds. -/
def retryBaseDelay : ℕ := 250

def maxRetryDelay : ℕ := 1000 * RetryAfter.maxRetryDelay

/-- In seconds. -/
def streamFirstChunkTimeout : ℕ := 120

def streamIdleTimeout : ℕ := 300

def responseHeadersTimeout (stream : Bool) : ℕ := if stream then 120 else 300

/-- What the HTTP library says of a request that has failed. -/
structure TransportKind where
  isBuilder : Bool := false
  isRedirect : Bool := false
  isStatus : Bool := false
  isBody : Bool := false
  isDecode : Bool := false
  isConnect : Bool := false
  isTimeout : Bool := false
  isRequest : Bool := false

inductive ClientError where
  | api (status : ℕ) (message : Text)
  | request (message : Text)
  | stream (message : Text)
  | transport (message : Text)
  deriving DecidableEq

def ClientError.ofLlm : LlmError → ClientError
  | .stream message => .stream message
  | .transport message => .transport message

/-- How a request ends without an answer. -/
inductive Stop where
  | failed (error : ClientError)
  | panicked
  deriving DecidableEq

/-- What comes of a request that was sent. -/
inductive Answer where
  | response (status : ℕ) (retryAfter : Option Text) (body : List Arrival)
  | failed (message : Text)
  /-- No headers within the time for them. -/
  | silent

/-- Whatever the client does not decide: the answers to its requests, in their order, the clock
when they are looked at, and the kinds of the failures. -/
structure Network where
  answers : ℕ → Answer
  now : ℕ → Int64
  kind : Text → TransportKind

/-- What the client does. -/
inductive Act where
  | request (body : Json)
  | sleep (delay : ℕ)

structure Wire where
  asked : ℕ := 0
  acts : List Act := []

def isSuccess (status : ℕ) : Bool := decide (200 ≤ status ∧ status < 300)

def isRetryableStatus (status : ℕ) : Bool := decide (status ∈ [408, 429, 500, 502, 503, 504])

def isRetryableTransport (kind : TransportKind) : Bool :=
  !kind.isBuilder && !kind.isRedirect && !kind.isStatus && !kind.isBody && !kind.isDecode &&
    (kind.isConnect || kind.isTimeout || kind.isRequest)

def exponentialBackoff (completedAttempt : ℕ) : ℕ :=
  let exponent := min (completedAttempt - 1) 10
  min (retryBaseDelay * 2 ^ exponent) maxRetryDelay

def retryDelay (retryAfter : Option Text) (now : Int64) (completedAttempt : ℕ) :
    Except RetryAfter.Panic ℕ :=
  match retryAfter with
  | none => .ok (exponentialBackoff completedAttempt)
  | some value =>
    match RetryAfter.boundedRetryAfter value now with
    | .error fault => .error fault
    | .ok none => .ok (exponentialBackoff completedAttempt)
    | .ok (some seconds) => .ok (1000 * seconds)

/-- The error of an answer that is no success. -/
def checkStatus (status : ℕ) (body : List Arrival) : Stop :=
  match errorBodySnippet body with
  | .error _ => .panicked
  | .ok message => .failed (.api status message)

def headersTimedOut (stream : Bool) : ClientError :=
  .request ("timed out waiting for response headers after ".toList ++
    natText (responseHeadersTimeout stream) ++ "s (".toList ++ natText maxRequestAttempts ++
    " attempts)".toList)

section
variable (network : Network)

/-- One request of `send_with_retry_timeouts`, up to the headers of its answer. -/
def sendOnce (body : Json) (stream : Bool) (attempt : ℕ) (wire : Wire) :
    Verdict (List Arrival) Stop × Wire :=
  let sent : Wire := ⟨wire.asked + 1, wire.acts ++ [.request body]⟩
  match network.answers wire.asked with
  | .response status retryAfter arrivals =>
    if isSuccess status then (.done arrivals, sent)
    else if isRetryableStatus status then
      match retryDelay retryAfter (network.now wire.asked) attempt with
      | .error _ => (.fail .panicked, sent)
      | .ok delay => (.again delay (checkStatus status arrivals), sent)
    else (.fail (checkStatus status arrivals), sent)
  | .failed message =>
    if isRetryableTransport (network.kind message) then
      (.again (exponentialBackoff attempt) (.failed (.transport message)), sent)
    else (.fail (.failed (.transport message)), sent)
  | .silent => (.again (exponentialBackoff attempt) (.failed (headersTimedOut stream)), sent)

def pause (delay : ℕ) (wire : Wire) : Wire := { wire with acts := wire.acts ++ [.sleep delay] }

def sendWithRetry (body : Json) (stream : Bool) (wire : Wire) : Except Stop (List Arrival) × Wire :=
  loop (sendOnce network body stream) pause (maxRequestAttempts - 1) 1 wire

def firstChunkTimedOut : Text := "timed out waiting for first SSE body chunk".toList

def isRetryablePreEventStreamError : LlmError → Bool
  | .transport message =>
    (network.kind message).isBody || (network.kind message).isDecode ||
      isRetryableTransport (network.kind message)
  | .stream message => firstChunkTimedOut.isPrefixOf message

variable (json : SerdeJson) (jsonError : Text → Text)

/-- The events of a response body, for one who asks for them one by one. -/
def responseEvents (arrivals : List Arrival) : SseState :=
  sseEventStream arrivals streamFirstChunkTimeout streamIdleTimeout

/-- One round of `chat_stream`: a request that is answered, and the first event of the answer. -/
def streamOnce (body : Json) (attempt : ℕ) (wire : Wire) :
    Verdict (StreamEvent × SseState) Stop × Wire :=
  match sendWithRetry network body true wire with
  | (.error stop, wire) => (.fail stop, wire)
  | (.ok arrivals, wire) =>
    match nextItem json jsonError (responseEvents arrivals) with
    | some (.ok first, events) => (.done (first, events), wire)
    | some (.error e, _) =>
      if isRetryablePreEventStreamError network e then
        (.again (exponentialBackoff attempt) (.failed (.ofLlm e)), wire)
      else (.fail (.failed (.ofLlm e)), wire)
    | none =>
      (.again (exponentialBackoff attempt)
        (.failed (.stream "SSE response ended before its first event".toList)), wire)

/-- The stream that is handed out is its first event, and what is left behind it. -/
def chatStream (body : Json) (wire : Wire) : Except Stop (StreamEvent × SseState) × Wire :=
  loop (streamOnce network json jsonError body) pause (maxStreamPreflightAttempts - 1) 1 wire

/-- What the consumer of the stream receives, up to the end or the first error. -/
def received (stream : StreamEvent × SseState) : List (Except LlmError StreamEvent) :=
  .ok stream.1 :: itemsUpToError json jsonError stream.2

end

end DeepseekScience.Llm
