import DeepseekScience.Lib.Blocks
import DeepseekScience.Lib.Utf8Stream
import DeepseekScience.Frontend.SessionMessages

/-! The reader of the event stream of a run (`connectSSE` of `client.ts`): chunks are decoded into
a buffer, every blank line closes a frame, and each event of a frame is one call of a handler. The
abort function may be called from outside or from a handler. -/
namespace DeepseekScience.Frontend

open Blocks Utf8Stream

section
/-! The handlers. -/

/-- The fields of `StreamHandlers`. -/
inductive Handler where
  | onStart
  | onIteration
  | onThinking
  | onText
  | onDraftReset
  | onToolCalls
  | onToolResults
  | onPlanUpdate
  | onNotice
  | onComplete
  | onError
  deriving DecidableEq

/-- One call of a handler; an argument is a field of the event that may be missing. -/
structure Call where
  handler : Handler
  args : List (Option Json)

def eventType (ev : Json) : Option Text := (ev.get? "type".toList).bind Json.asStr

/-- The events that hand over fields of theirs. -/
def eventHandlers : List (Text × Handler × List Text) :=
  [("start".toList, .onStart, ["frame_id".toList, "task_summary".toList]),
    ("iteration".toList, .onIteration, ["n".toList]),
    ("thinking".toList, .onThinking, ["text".toList]),
    ("text".toList, .onText, ["text".toList]),
    ("draft_reset".toList, .onDraftReset, ["reason".toList]),
    ("tool_calls".toList, .onToolCalls, ["calls".toList]),
    ("tool_results".toList, .onToolResults, ["results".toList]),
    ("plan_update".toList, .onPlanUpdate, ["plan".toList]),
    ("notice".toList, .onNotice, ["event".toList, "detail".toList]),
    ("error".toList, .onError, ["message".toList])]

/-- The call that an event asks for; an event of an unknown type asks for none. -/
def dispatchEvent (ev : Json) : Option Call :=
  (eventType ev).bind fun type =>
    if type = "complete".toList then some ⟨.onComplete, [some ev]⟩
    else (eventHandlers.lookup type).map fun (handler, fields) =>
      ⟨handler, fields.map fun field => ev.get? field⟩

/-- The events that end a run. -/
def isTerminal (ev : Json) : Bool :=
  eventType ev = some "complete".toList || eventType ev = some "error".toList

def transportError (message : Text) : Call := ⟨.onError, [some (.string message)]⟩

end

section
/-! The state of a connection. -/

/-- What happens on the side of the caller: a handler is called, or the abort function is. -/
inductive Act where
  | call (call : Call)
  | abort

def Act.call? : Act → Option Call
  | .call made => some made
  | .abort => none

def Act.isAbort : Act → Bool
  | .call _ => false
  | .abort => true

def callsOf (log : List Act) : List Call := log.filterMap Act.call?

/-- `finished` when the reader has returned. -/
structure Client where
  decoder : Utf8Stream.State := {}
  bomSeen : Bool := false
  buf : Text := []
  log : List Act := []
  finished : Bool := false

/-- `ctrl.signal.aborted`. -/
def Client.aborted (s : Client) : Bool := s.log.any Act.isAbort

/-- The caller: the handlers that it provides, and whether a handler calls the abort function, given
all calls so far. -/
structure Caller where
  provides : Handler → Bool
  aborts : List Call → Bool

variable (caller : Caller)

/-- `handlers.onX?.(..)`. -/
def Client.invoke (call : Call) (s : Client) : Client :=
  if caller.provides call.handler then
    let log := s.log ++ [.call call]
    { s with log := if caller.aborts (callsOf log) then log ++ [.abort] else log }
  else s

def Client.abort (s : Client) : Client := { s with log := s.log ++ [.abort] }

def Client.finish (s : Client) : Client := { s with finished := true }

/-- The outer `catch`: an exception is reported unless the caller has aborted. -/
def Client.caught (message : Text) (s : Client) : Client :=
  if s.aborted then s.finish else (s.invoke caller (transportError message)).finish

end

section
/-! The loops over frames and lines. -/

/-- White space as `String.prototype.trim` has it. -/
def isBlankJs (c : Char) : Bool := isWhitespace c && c != '\u0085' || c == '\uFEFF'

def trimJs (t : Text) : Text :=
  ((t.dropWhile isBlankJs).reverse.dropWhile isBlankJs).reverse

/-- `nullError` is the text of the exception that reading a property of null throws. -/
structure StreamLib where
  parseJson : Text → Option Json
  nullError : Text

variable (lib : StreamLib) (caller : Caller)

inductive LineMeaning where
  | skipped
  | event (ev : Json)
  | null

def readLine (line : Text) : LineMeaning :=
  if !"data:".toList.isPrefixOf line then .skipped
  else
    let payload := trimJs (line.drop 5)
    if payload.isEmpty then .skipped
    else
      match lib.parseJson payload with
      | none => .skipped
      | some .null => .null
      | some ev => .event ev

def Client.dispatch (ev : Json) (s : Client) : Client :=
  match dispatchEvent ev with
  | some call => s.invoke caller call
  | none => s

def Client.readLines : List Text → Client → Client
  | [], s => s
  | line :: lines, s =>
    match readLine lib line with
    | .skipped => s.readLines lines
    | .null => s.caught caller lib.nullError
    | .event ev =>
      if isTerminal ev then (s.dispatch caller ev).finish
      else (s.dispatch caller ev).readLines lines

/-- What the reader keeps of the bytes. -/
def Client.kept (s : Client) : Utf8Stream.State × Bool × Text := (s.decoder, s.bomSeen, s.buf)

theorem invoke_kept {s : Client} (made : Call) : (s.invoke caller made).kept = s.kept := by
  rw [Client.invoke]
  split_ifs <;> rfl

theorem dispatch_kept {s : Client} (ev : Json) : (s.dispatch caller ev).kept = s.kept := by
  rw [Client.dispatch]
  cases dispatchEvent ev with
  | none => rfl
  | some made => exact invoke_kept caller made

theorem readLines_kept {s : Client} (lines : List Text) :
    (s.readLines lib caller lines).kept = s.kept := by
  induction lines generalizing s with
  | nil => rfl
  | cons line lines ih =>
    rw [Client.readLines]
    cases readLine lib line with
    | skipped => exact ih
    | null =>
      dsimp only
      rw [Client.caught]
      split_ifs
      · rfl
      · exact invoke_kept caller _
    | event ev =>
      dsimp only
      split_ifs
      · exact dispatch_kept caller ev
      · rw [ih, dispatch_kept]

theorem readLines_buf {s : Client} (lines : List Text) :
    (s.readLines lib caller lines).buf = s.buf :=
  congrArg (fun kept => kept.2.2) (readLines_kept lib caller lines)

/-- The frames that are complete, up to the event that ends the run. -/
def Client.readFrames (s : Client) : Client :=
  if s.finished then s
  else
    match _ : takeBlock '\n' s.buf with
    | none => s
    | some (frame, rest) =>
      Client.readFrames ({ s with buf := rest }.readLines lib caller (frame.splitOn '\n'))
  termination_by s.buf.length
  decreasing_by
    rw [readLines_buf]
    exact takeBlock_length ‹_›

end

section
/-! The connection. -/

variable (lib : StreamLib) (caller : Caller)

/-- The byte order mark, which the decoder leaves out at the start of the stream. -/
def dropBom (bomSeen : Bool) (chars : Text) : Text :=
  if bomSeen then chars else if chars.head? = some '\uFEFF' then chars.tail else chars

def Client.receive (bytes : List UInt8) (s : Client) : Client :=
  if s.finished then s
  else
    let (decoder, chars) := feeds s.decoder bytes
    { s with decoder := decoder
             bomSeen := s.bomSeen || !chars.isEmpty
             buf := s.buf ++ dropBom s.bomSeen chars }.readFrames lib caller

/-- What comes in while the reader waits: a call of the abort function, or a chunk. -/
inductive Input where
  | abort
  | chunk (bytes : List UInt8)

def Client.take (s : Client) : Input → Client
  | .abort => s.abort
  | .chunk bytes => s.receive lib caller bytes

inductive Ending where
  | done
  | failed (message : Text)

def endedEarly : Text := "连接中断：流在未收到 complete 时结束".toList

/-- The last read: there is no more of the body, or the connection has failed. -/
def Client.close (s : Client) : Ending → Client
  | .done =>
    if s.finished then s
    else if s.aborted then s.finish
    else (s.invoke caller (transportError endedEarly)).finish
  | .failed message => if s.finished then s else s.caught caller message

inductive Response where
  | failed (message : Text)
  | refused (status : ℕ) (statusText : Text)
  | opened

/-- One connection: the answer to the request, whether the abort function was called before it was
looked at, what came in, and how the body ended if it has. -/
structure Exchange where
  response : Response
  early : Bool
  inputs : List Input
  ending : Option Ending

def refusal (status : ℕ) (statusText : Text) : Text :=
  trimJs ("HTTP ".toList ++ Nat.toDigits 10 status ++ " ".toList ++ statusText)

def Client.opening (early : Bool) : Client := { log := if early then [.abort] else [] }

/-- The connection up to the end of the inputs. -/
def reading (early : Bool) (inputs : List Input) : Client :=
  inputs.foldl (Client.take lib caller) (.opening early)

/-- What happens on the side of the caller in one connection. -/
def connectSSE (x : Exchange) : List Act :=
  match x.response with
  | .failed message => ((Client.opening x.early).caught caller message).log
  | .refused status statusText =>
    ((Client.opening x.early).invoke caller (transportError (refusal status statusText))).log
  | .opened => (x.ending.elim id (fun e s => s.close caller e)
      (reading lib caller x.early x.inputs)).log

end
end DeepseekScience.Frontend
