import DeepseekScience.Llm.Sse
import DeepseekScience.Mcp.Mount
import DeepseekScience.TextLines

/-! The answer to a JSON-RPC call (dss-mcp, `client.rs`). The body is JSON or an event stream; of
a stream the last `data:` line that can be read is taken, and only then is its id compared. -/
namespace DeepseekScience.Mcp

open Llm

def maxResponseBytes : ℕ := 2 * 1024 * 1024

inductive McpError where
  | transport (message : Text)
  | rpc (code : ℤ) (message : Text)
  | invalid (message : Text)
  | responseTooLarge (limit : ℕ)
  deriving DecidableEq

/-- The bytes of a body: UTF-8 text, or so many other bytes. -/
inductive Body where
  | text (text : Text)
  | bytes (size : ℕ)

def Body.size : Body → ℕ
  | .text t => byteLen t
  | .bytes n => n

/-- A reply that has arrived. A session id is `some none` when its header is not ASCII. -/
structure HttpReply where
  status : Text := "200 OK".toList
  isSuccess : Bool := true
  sessionId : Option (Option Text) := none
  contentType : Option Text
  contentLength : Option ℕ := none
  body : Body

/-- `Value::as_i64`. -/
def asI64 : Json → Option ℤ
  | .number ('-' :: digits) =>
    ((Json.number digits).asU64.filter fun n => decide (0 < n ∧ n ≤ 2 ^ 63)).map fun n => -(n : ℤ)
  | v => (v.asU64.filter fun n => decide (n < 2 ^ 63)).map fun n => (n : ℤ)

def truncate (value : Text) (max : ℕ) : Text :=
  if value.length ≤ max then value else value.take max ++ ['…']

def readBounded (reply : HttpReply) (limit : ℕ) : Except McpError Body :=
  if reply.contentLength.any (fun n => decide (limit < n)) then .error (.responseTooLarge limit)
  else if limit < reply.body.size then .error (.responseTooLarge limit)
  else .ok reply.body

/-- The session that the client goes on with. -/
def captureSession (stored : Option Text) (reply : HttpReply) : Except McpError (Option Text) :=
  match reply.sessionId with
  | none => .ok stored
  | some none => .error (.invalid "MCP session id is not valid ASCII".toList)
  | some (some session) =>
    match validateIdentifier session "MCP session id".toList 2048 with
    | .error message => .error (.invalid message)
    | .ok () => .ok (some session)

section
variable (json : SerdeJson) (jsonError : Text → Text)

/-- The JSON of a `data:` line. -/
def dataOf (line : Text) : Option Json :=
  match stripPrefixText "data:".toList line with
  | none => none
  | some payload => if (trim payload).isEmpty then none else json.fromStr (trim payload)

/-- `jsonError` is the text of a failed JSON parse. -/
def parseResponseValue (text : Text) (contentType : Option Text) : Except McpError Json :=
  if contentType.any (containsText "text/event-stream".toList) then
    match ((textLines text).filterMap (dataOf json)).getLast? with
    | some value => .ok value
    | none => .error (.invalid "SSE response had no parseable data".toList)
  else
    match json.fromStr text with
    | some value => .ok value
    | none => .error (.invalid ("non-JSON body: ".toList ++ jsonError text))

def resultOrError (members : List (Text × Json)) : Except McpError Json :=
  if (members.lookup "jsonrpc".toList).bind Json.asStr ≠ some "2.0".toList then
    .error (.invalid "response jsonrpc must equal 2.0".toList)
  else
    match members.lookup "error".toList with
    | some error =>
      .error (.rpc ((asI64 (error.get "code".toList)).getD (-1))
        ((error.get "message".toList).asStr.getD "unknown".toList))
    | none =>
      match members.lookup "result".toList with
      | some result => .ok result
      | none => .error (.invalid "response has neither result nor error".toList)

/-- The check of the value that was taken. -/
def answerOf (id : ℕ) (value : Json) : Except McpError Json :=
  match value with
  | .object members =>
    if (members.lookup "id".toList).bind Json.asU64 ≠ some id then
      .error (.invalid ("response id does not match request ".toList ++ natText id))
    else resultOrError members
  | _ => .error (.invalid "response not an object".toList)

/-- `MCPClient::rpc` behind the request with an id, and the session it leaves. -/
def rpc (id : ℕ) (stored : Option Text) (reply : HttpReply) :
    Except McpError Json × Option Text :=
  match captureSession stored reply with
  | .error e => (.error e, stored)
  | .ok stored =>
    (match readBounded reply maxResponseBytes with
      | .error e => .error e
      | .ok (.bytes _) => .error (.invalid "response body is not UTF-8".toList)
      | .ok (.text text) =>
        if reply.isSuccess then
          match parseResponseValue json jsonError text reply.contentType with
          | .error e => .error e
          | .ok value => answerOf id value
        else
          .error (.transport ("HTTP ".toList ++ reply.status ++ ": ".toList ++ truncate text 300)),
      stored)

end

/-! Event streams. -/

inductive LineEnd where
  | lf
  | crlf
  | cr
  deriving DecidableEq

def LineEnd.text : LineEnd → Text
  | .lf => ['\n']
  | .crlf => ['\r', '\n']
  | .cr => ['\r']

def LineEnd.hasLf : LineEnd → Bool
  | .cr => false
  | _ => true

/-- A line of an event stream: of its `data` fields, each is the one JSON text of its event. -/
inductive StreamLine where
  | blank
  | comment (text : Text)
  | field (name : Text) (value : Option Text)
  | data (padded : Bool) (text : Text) (value : Json)

namespace StreamLine

def text : StreamLine → Text
  | blank => []
  | comment t => ':' :: t
  | field name none => name
  | field name (some value) => name ++ ':' :: value
  | data padded t _ => "data:".toList ++ (if padded then [' '] else []) ++ t

def oneLine (t : Text) : Prop := '\n' ∉ t ∧ '\r' ∉ t

/-- What serde_json makes of a text on a line: it reads its value, whatever blanks surround it, or
refuses it for its nesting; with more behind it, the text is refused. -/
structure Reads (json : SerdeJson) (t : Text) (value : Json) : Prop where
  blanks : ∀ w, allWhitespace w = true → json.fromStr (trim (t ++ w)) = json.fromStr t
  trailing : ∀ w, allWhitespace w = false → json.fromStr (trim (t ++ '\r' :: w)) = none
  value_eq : ∀ v, json.fromStr t = some v → v = value
  nonempty : allWhitespace t = false

def WellFormed (json : SerdeJson) : StreamLine → Prop
  | blank => True
  | comment t => oneLine t
  | field name value =>
    oneLine name ∧ ':' ∉ name ∧ name ≠ "data".toList ∧ ∀ t, value = some t → oneLine t
  | data _ t value => oneLine t ∧ Reads json t value

end StreamLine

abbrev Stream := List (StreamLine × LineEnd)

def Stream.text (lines : Stream) : Text := lines.flatMap fun l => l.1.text ++ l.2.text

/-- The body, behind a byte order mark if there is one. -/
def streamText (bom : Bool) (lines : Stream) : Text :=
  (if bom then ['\uFEFF'] else []) ++ Stream.text lines

/-- The messages of a stream. -/
def messages (lines : Stream) : List Json :=
  lines.filterMap fun
    | (.data _ _ value, _) => some value
    | _ => none

/-- Between a line and the next line feed there are only blanks. -/
def endsLine : LineEnd → Stream → Bool
  | .cr, (l, e) :: rest => allWhitespace l.text && endsLine e rest
  | _, _ => true

/-- The messages that stand between line feeds. -/
def plainMessages (json : SerdeJson) : Bool → Stream → List Json
  | _, [] => []
  | fresh, (l, e) :: rest =>
    let behind := plainMessages json e.hasLf rest
    match l with
    | .data _ t value =>
      if fresh && endsLine e rest && (json.fromStr t).isSome then value :: behind else behind
    | _ => behind

section
variable {json : SerdeJson} {lines rest before behind : Stream} {l : StreamLine} {e : LineEnd}
  {t w : Text}

theorem trim_append_of_allWhitespace (hw : allWhitespace w = true) : trim (t ++ w) = trim t := by
  have hend : ∀ x : Text, trimEnd (x ++ w) = trimEnd x := by
    intro x
    have hall : ∀ c ∈ w.reverse, isWhitespace c = true := fun c hc =>
      List.all_eq_true.mp hw c (List.mem_reverse.mp hc)
    rw [trimEnd, List.reverse_append, List.dropWhile_append_of_pos hall, trimEnd]
  by_cases ht : allWhitespace t = true
  · rw [trim_eq_nil_of_allWhitespace ht, trim_eq_nil_of_allWhitespace]
    rw [allWhitespace_append, ht, hw]
    rfl
  · have hstart : trimStart (t ++ w) = trimStart t ++ w := by
      have hne : t.dropWhile isWhitespace ≠ [] := by
        intro h
        exact ht (List.all_eq_true.mpr (List.dropWhile_eq_nil_iff.mp h))
      rw [trimStart, List.dropWhile_append, if_neg (by simpa using hne), trimStart]
    rw [trim, hstart, hend, trim]

theorem stripPrefixText_append {pattern : Text} (t : Text) :
    stripPrefixText pattern (pattern ++ t) = some t := by
  have h : pattern.isPrefixOf (pattern ++ t) = true :=
    List.isPrefixOf_iff_prefix.mpr (List.prefix_append pattern t)
  rw [stripPrefixText, h, if_pos rfl, List.drop_left]

theorem stripPrefixText_eq_some {pattern t' : Text} (h : stripPrefixText pattern t = some t') :
    t = pattern ++ t' := by
  unfold stripPrefixText at h
  split_ifs at h with hpre
  obtain ⟨rest, rfl⟩ := List.isPrefixOf_iff_prefix.mp hpre
  rw [← Option.some.inj h, List.drop_left]

/-- A carriage return at the end of a line changes nothing. -/
theorem dataOf_append_cr (line : Text) : dataOf json (line ++ ['\r']) = dataOf json line := by
  unfold dataOf
  cases hline : stripPrefixText "data:".toList line with
  | some payload =>
    have heq := stripPrefixText_eq_some hline
    rw [heq, List.append_assoc, stripPrefixText_append]
    dsimp only
    rw [trim_append_of_allWhitespace (by decide)]
  | none =>
    cases hlonger : stripPrefixText "data:".toList (line ++ ['\r']) with
    | none => rfl
    | some payload =>
      have heq := stripPrefixText_eq_some hlonger
      obtain rfl | ⟨payload', c, rfl⟩ := List.eq_nil_or_concat payload
      · have hlast := congrArg List.getLast? heq
        rw [List.getLast?_concat] at hlast
        exact absurd hlast (by decide)
      · rw [List.concat_eq_append, ← List.append_assoc] at heq
        obtain ⟨hfront, -⟩ := List.append_inj' heq rfl
        rw [hfront, stripPrefixText_append] at hline
        cases hline

theorem chompLine_lf (line : Text) : chompLine (line ++ ['\n']) = line ∨
    line = chompLine (line ++ ['\n']) ++ ['\r'] := by
  have hreverse : (line ++ ['\n']).reverse = '\n' :: line.reverse := by
    rw [List.reverse_append]
    rfl
  unfold chompLine
  rw [hreverse]
  split
  · next rest heq =>
    rw [List.cons.injEq] at heq
    right
    rw [← List.reverse_reverse line, heq.2, List.reverse_cons]
  · next rest _ heq =>
    rw [List.cons.injEq] at heq
    left
    rw [← heq.2, List.reverse_reverse]
  · next _ hother => exact absurd rfl (hother line.reverse)

/-- A line feed, with or without a carriage return, ends a line. -/
theorem dataOf_chompLine (line : Text) :
    dataOf json (chompLine (line ++ ['\n'])) = dataOf json line := by
  obtain h | h := chompLine_lf line
  · rw [h]
  · conv_rhs => rw [h]
    exact (dataOf_append_cr _).symm

/-- The text up to the next line feed, and the lines behind it. -/
def takeRow : Stream → Text × Stream
  | [] => ([], [])
  | (l, .cr) :: rest => (l.text ++ '\r' :: (takeRow rest).1, (takeRow rest).2)
  | (l, _) :: rest => (l.text, rest)

theorem Stream.text_cons : Stream.text ((l, e) :: rest) = l.text ++ e.text ++ Stream.text rest :=
  List.flatMap_cons

theorem StreamLine.WellFormed.lf_notMem (h : l.WellFormed json) : '\n' ∉ l.text := by
  cases l with
  | blank => exact List.not_mem_nil
  | comment t =>
    rw [StreamLine.text, List.mem_cons, not_or]
    exact ⟨by decide, h.1⟩
  | field name value =>
    obtain ⟨hname, -, -, hvalue⟩ := h
    cases value with
    | none => exact hname.1
    | some value =>
      rw [StreamLine.text, List.mem_append, List.mem_cons, not_or, not_or]
      exact ⟨hname.1, by decide, (hvalue value rfl).1⟩
  | data padded t value =>
    rw [StreamLine.text, List.mem_append, List.mem_append, not_or, not_or]
    refine ⟨⟨by decide, ?_⟩, h.1.1⟩
    cases padded <;> decide

/-- How a row ends. -/
theorem takeRow_spec (hwf : ∀ line ∈ lines, line.1.WellFormed json) :
    '\n' ∉ (takeRow lines).1 ∧
      ((Stream.text lines = (takeRow lines).1 ∧ (takeRow lines).2 = []) ∨
        (∃ tail, (tail = [] ∨ tail = ['\r']) ∧ Stream.text lines =
          (takeRow lines).1 ++ tail ++ '\n' :: Stream.text (takeRow lines).2)) := by
  induction lines with
  | nil => exact ⟨List.not_mem_nil, Or.inl ⟨rfl, rfl⟩⟩
  | cons line rest ih =>
    obtain ⟨l, e⟩ := line
    obtain ⟨hl, hrest⟩ := List.forall_mem_cons.mp hwf
    rw [Stream.text_cons]
    cases e with
    | lf => exact ⟨hl.lf_notMem, Or.inr ⟨[], Or.inl rfl, by simp [takeRow, LineEnd.text]⟩⟩
    | crlf => exact ⟨hl.lf_notMem, Or.inr ⟨['\r'], Or.inr rfl, by simp [takeRow, LineEnd.text]⟩⟩
    | cr =>
      obtain ⟨hfree, htext⟩ := ih hrest
      constructor
      · rw [takeRow, List.mem_append, List.mem_cons]
        rintro (h | h | h)
        · exact hl.lf_notMem h
        · exact absurd h (by decide)
        · exact hfree h
      · obtain ⟨htext, hnil⟩ | ⟨tail, htail, htext⟩ := htext
        · left
          exact ⟨by rw [htext, takeRow, LineEnd.text, List.append_assoc]; rfl, hnil⟩
        · right
          refine ⟨tail, htail, ?_⟩
          rw [htext, takeRow, LineEnd.text]
          simp only [List.append_assoc, List.cons_append, List.nil_append]

/-- The JSON of the lines of a text. -/
def payloads (json : SerdeJson) (t : Text) : List Json := (textLines t).filterMap (dataOf json)

theorem textLines_lf {line : Text} (h : '\n' ∉ line) (t : Text) :
    payloads json (line ++ '\n' :: t) = (dataOf json line).toList ++ payloads json t := by
  rw [payloads, textLines, Lines.lines_append _ _ h, List.map_cons, List.filterMap_cons,
    dataOf_chompLine]
  cases dataOf json line <;> rfl

theorem payloads_of_notMem {line : Text} (h : '\n' ∉ line) :
    payloads json line = (dataOf json line).toList := by
  by_cases hne : line = []
  · subst hne
    rfl
  · have hchomp : chompLine line = line := by
      unfold chompLine
      split
      · next rest heq => exact absurd (List.mem_reverse.mp (heq ▸ List.mem_cons_self)) h
      · next rest _ heq => exact absurd (List.mem_reverse.mp (heq ▸ List.mem_cons_self)) h
      · rfl
    rw [payloads, textLines, Lines.lines_of_notMem h hne, List.map_singleton, hchomp,
      List.filterMap_cons, List.filterMap_nil]
    cases dataOf json line <;> rfl

/-- What is read of a stream, row by row, when something free of line feeds stands in front. -/
theorem payloads_row (hwf : ∀ line ∈ lines, line.1.WellFormed json) {front : Text}
    (hfront : '\n' ∉ front) :
    payloads json (front ++ Stream.text lines) =
      (dataOf json (front ++ (takeRow lines).1)).toList ++
        payloads json (Stream.text (takeRow lines).2) := by
  obtain ⟨hfree, ⟨htext, hnil⟩ | ⟨tail, htail, htext⟩⟩ := takeRow_spec hwf
  · have hline : '\n' ∉ front ++ (takeRow lines).1 := by
      rw [List.mem_append]
      exact fun h => h.elim hfront hfree
    rw [htext, payloads_of_notMem hline, hnil]
    exact (List.append_nil _).symm
  · have hline : '\n' ∉ front ++ (takeRow lines).1 ++ tail := by
      rw [List.mem_append, List.mem_append]
      rintro ((h | h) | h)
      · exact hfront h
      · exact hfree h
      · obtain rfl | rfl := htail
        · exact absurd h List.not_mem_nil
        · exact absurd h (by decide)
    rw [htext, ← List.append_assoc, ← List.append_assoc, textLines_lf hline]
    obtain rfl | rfl := htail
    · rw [List.append_nil]
    · rw [dataOf_append_cr]

theorem endsLine_of_hasLf (h : e.hasLf = true) : endsLine e lines = true := by
  cases e with
  | lf | crlf => cases lines <;> rfl
  | cr => cases h

theorem allWhitespace_takeRow : allWhitespace (takeRow lines).1 = endsLine .cr lines := by
  induction lines with
  | nil => rfl
  | cons line rest ih =>
    obtain ⟨l, e⟩ := line
    cases e with
    | lf => simp [takeRow, endsLine]
    | crlf => simp [takeRow, endsLine]
    | cr =>
      have hcr : isWhitespace '\r' = true := by decide
      rw [takeRow, endsLine, ← ih, allWhitespace_append, allWhitespace, allWhitespace,
        allWhitespace, List.all_cons, hcr, Bool.true_and]

/-- What may follow a line in its row. -/
def RowTail (w : Text) : Prop := w = [] ∨ ∃ w', w = '\r' :: w'

theorem dataOf_eq_none {line : Text} (h : ∀ payload, line ≠ "data:".toList ++ payload) :
    dataOf json line = none := by
  unfold dataOf
  cases hline : stripPrefixText "data:".toList line with
  | none => rfl
  | some payload => exact absurd (stripPrefixText_eq_some hline) (h payload)

/-- A field of another name does not read as data. -/
theorem field_ne_data {name tail payload : Text} (hname : ':' ∉ name) (hdata : name ≠ "data".toList)
    (htail : tail = [] ∨ (∃ w, tail = '\r' :: w) ∨ ∃ w, tail = ':' :: w) :
    name ++ tail ≠ "data:".toList ++ payload := by
  intro heq
  have hsplit : name ++ tail = "data".toList ++ ':' :: payload := heq
  obtain ⟨more, hmore, htail'⟩ | ⟨more, hmore, htail'⟩ := List.append_eq_append_iff.mp hsplit
  · cases more with
    | nil => exact hdata (by rw [hmore, List.append_nil])
    | cons c more =>
      obtain rfl | ⟨w, rfl⟩ | ⟨w, rfl⟩ := htail
      · cases htail'
      · obtain ⟨rfl, -⟩ := List.cons.inj htail'
        have hmem : '\r' ∈ "data".toList := by
          rw [hmore]
          exact List.mem_append_right _ List.mem_cons_self
        exact absurd hmem (by decide)
      · obtain ⟨rfl, -⟩ := List.cons.inj htail'
        have hmem : ':' ∈ "data".toList := by
          rw [hmore]
          exact List.mem_append_right _ List.mem_cons_self
        exact absurd hmem (by decide)
  · cases more with
    | nil => exact hdata (by rw [hmore, List.append_nil])
    | cons c more =>
      obtain ⟨rfl, -⟩ := List.cons.inj htail'
      apply hname
      rw [hmore]
      exact List.mem_append_right _ List.mem_cons_self

/-- Only the data lines are read. -/
theorem dataOf_other (hl : l.WellFormed json) (hw : RowTail w)
    (hother : ∀ padded t value, l ≠ .data padded t value) : dataOf json (l.text ++ w) = none := by
  apply dataOf_eq_none
  intro payload
  cases l with
  | blank =>
    obtain rfl | ⟨w, rfl⟩ := hw
    · exact fun h => by cases h
    · exact fun h => absurd (List.cons.inj h).1 (by decide)
  | comment t => exact fun h => absurd (List.cons.inj h).1 (by decide)
  | field name value =>
    obtain ⟨-, hcolon, hdata, -⟩ := hl
    cases value with
    | none => exact field_ne_data hcolon hdata (hw.elim Or.inl fun h => Or.inr (Or.inl h))
    | some value =>
      rw [StreamLine.text, List.append_assoc]
      exact field_ne_data hcolon hdata (Or.inr (Or.inr ⟨_, rfl⟩))
  | data padded t value => exact absurd rfl (hother padded t value)

theorem trim_cons_space (t : Text) : trim (' ' :: t) = trim t := by
  rw [trim, trim, trimStart, List.dropWhile_cons_of_pos (by decide), trimStart]

/-- A data line is read when only blanks follow it in its row. -/
theorem dataOf_data {padded : Bool} {value : Json}
    (hl : (StreamLine.data padded t value).WellFormed json) :
    dataOf json ((StreamLine.data padded t value).text) = json.fromStr t ∧
      ∀ w, dataOf json ((StreamLine.data padded t value).text ++ '\r' :: w) =
        if allWhitespace w then json.fromStr t else none := by
  obtain ⟨-, hreads⟩ := hl
  have hpayload : ∀ w, dataOf json ((StreamLine.data padded t value).text ++ w) =
      json.fromStr (trim (t ++ w)) := by
    intro w
    have htrim : trim ((if padded then [' '] else []) ++ t ++ w) = trim (t ++ w) := by
      cases padded
      · rfl
      · exact trim_cons_space (t ++ w)
    have hempty : (trim (t ++ w)).isEmpty = false := by
      rw [trim_isEmpty, allWhitespace_append, hreads.nonempty, Bool.false_and]
    unfold dataOf
    rw [StreamLine.text, List.append_assoc, List.append_assoc, stripPrefixText_append]
    dsimp only
    rw [← List.append_assoc, htrim, hempty, if_neg Bool.false_ne_true]
  constructor
  · have h := hpayload []
    rwa [List.append_nil, hreads.blanks [] rfl] at h
  · intro w
    rw [hpayload]
    split_ifs with hw
    · apply hreads.blanks
      rw [allWhitespace, List.all_cons]
      exact hw
    · exact hreads.trailing w (Bool.eq_false_iff.mpr hw)

theorem plainMessages_false :
    plainMessages json false lines = plainMessages json true (takeRow lines).2 := by
  induction lines with
  | nil => rfl
  | cons line rest ih =>
    obtain ⟨l, e⟩ := line
    have hhead : plainMessages json false ((l, e) :: rest) = plainMessages json e.hasLf rest := by
      cases l <;> simp [plainMessages]
    rw [hhead]
    cases e with
    | lf | crlf => rfl
    | cr => exact ih

/-- What is read of the first row, and of the rows behind it. -/
theorem plainMessages_row (hwf : ∀ line ∈ lines, line.1.WellFormed json) :
    plainMessages json true lines =
      (dataOf json (takeRow lines).1).toList ++ plainMessages json true (takeRow lines).2 := by
  cases lines with
  | nil => rfl
  | cons line rest =>
    obtain ⟨l, e⟩ := line
    obtain ⟨hl, -⟩ := List.forall_mem_cons.mp hwf
    have hbehind : plainMessages json e.hasLf rest =
        plainMessages json true (takeRow ((l, e) :: rest)).2 := by
      cases e with
      | lf | crlf => rfl
      | cr => exact plainMessages_false
    have htail : ∃ w, (takeRow ((l, e) :: rest)).1 = l.text ++ w ∧ RowTail w := by
      cases e with
      | lf | crlf => exact ⟨[], (List.append_nil _).symm, Or.inl rfl⟩
      | cr => exact ⟨_, rfl, Or.inr ⟨_, rfl⟩⟩
    cases l with
    | blank | comment t | field name value =>
      obtain ⟨w, hrow, hw⟩ := htail
      rw [hrow, dataOf_other hl hw (fun _ _ _ h => by cases h)]
      exact hbehind
    | data padded t value =>
      rw [← hbehind]
      have hdata : dataOf json (takeRow ((.data padded t value, e) :: rest)).1 =
          if endsLine e rest then json.fromStr t else none := by
        cases e with
        | lf | crlf =>
          rw [endsLine_of_hasLf rfl, if_pos rfl]
          exact (dataOf_data hl).1
        | cr => exact ((dataOf_data hl).2 _).trans (by rw [allWhitespace_takeRow])
      rw [hdata]
      simp only [plainMessages, Bool.true_and]
      cases hread : json.fromStr t with
      | none => simp
      | some v =>
        obtain rfl := hl.2.value_eq v hread
        by_cases hend : endsLine e rest = true
        · simp [hend]
        · simp [hend]

theorem takeRow_length (hne : lines ≠ []) : (takeRow lines).2.length < lines.length := by
  induction lines with
  | nil => exact absurd rfl hne
  | cons line rest ih =>
    obtain ⟨l, e⟩ := line
    cases e with
    | lf | crlf => exact Nat.lt_succ_self _
    | cr =>
      cases rest with
      | nil => exact Nat.zero_lt_one
      | cons next rest => exact (ih (List.cons_ne_nil _ _)).trans (Nat.lt_succ_self _)

theorem takeRow_subset : ∀ line ∈ (takeRow lines).2, line ∈ lines := by
  induction lines with
  | nil => exact fun line h => h
  | cons line rest ih =>
    obtain ⟨l, e⟩ := line
    cases e with
    | lf | crlf => exact fun line h => List.mem_cons_of_mem _ h
    | cr => exact fun line h => List.mem_cons_of_mem _ (ih line h)

/-- The parser of the client reads exactly the messages that stand between line feeds. -/
theorem payloads_text (hwf : ∀ line ∈ lines, line.1.WellFormed json) :
    payloads json (Stream.text lines) = plainMessages json true lines := by
  induction hn : lines.length using Nat.strong_induction_on generalizing lines with
  | _ n ih =>
    cases lines with
    | nil => rfl
    | cons line rest =>
      have hlt := takeRow_length (List.cons_ne_nil line rest)
      have hrows := @payloads_row json _ hwf [] List.not_mem_nil
      rw [List.nil_append, List.nil_append] at hrows
      rw [hrows, plainMessages_row hwf, ih _ (hn ▸ hlt)
        (fun line h => hwf line (takeRow_subset line h)) rfl]

theorem payloads_streamText (hwf : ∀ line ∈ lines, line.1.WellFormed json) (bom : Bool) :
    payloads json (streamText bom lines) = plainMessages json (!bom) lines := by
  cases bom with
  | false => exact payloads_text hwf
  | true =>
    have hmark : dataOf json (['\uFEFF'] ++ (takeRow lines).1) = none :=
      dataOf_eq_none fun payload h => absurd (List.cons.inj h).1 (by decide)
    have hrows := @payloads_row json _ hwf ['\uFEFF'] (by decide)
    rw [hmark, payloads_text fun line h => hwf line (takeRow_subset line h)] at hrows
    exact hrows.trans plainMessages_false.symm

end

/-! The answer to a call. -/

/-- The answer to the call with an id: a result or an error, and not both. -/
structure IsResponse (id : ℕ) (members : List (Text × Json)) : Prop where
  version : (members.lookup "jsonrpc".toList).bind Json.asStr = some "2.0".toList
  id_eq : (members.lookup "id".toList).bind Json.asU64 = some id
  outcome : (members.lookup "error".toList).isSome ≠ (members.lookup "result".toList).isSome

/-- A notification, a request of the server, whatever its id, or the answer to another call. -/
def IsForeign (id : ℕ) (value : Json) : Prop :=
  ∀ members, value = .object members → (members.lookup "id".toList).bind Json.asU64 = some id →
    members.lookup "result".toList = none ∧ members.lookup "error".toList = none

/-- A successful reply with an event stream. -/
structure CarriesStream (stored : Option Text) (reply : HttpReply) (t : Text) : Prop where
  isSuccess : reply.isSuccess = true
  contentType : reply.contentType.any (containsText "text/event-stream".toList) = true
  session : ∃ s, captureSession stored reply = .ok s
  body : reply.body = .text t
  contentLength : ∀ n, reply.contentLength = some n → n = byteLen t

/-- Whether a line begins behind the stream. -/
def freshAfter : Bool → Stream → Bool
  | fresh, [] => fresh
  | _, (_, e) :: rest => freshAfter e.hasLf rest

/-- A message is read, and none behind it is: it stands alone between two line feeds (or the ends of
the body), its nesting is not too deep, and so stands no message behind it. -/
def ReadLast (json : SerdeJson) (bom : Bool) (before : Stream) (t : Text) (e : LineEnd)
    (behind : Stream) : Prop :=
  freshAfter (!bom) before = true ∧ endsLine e behind = true ∧ (json.fromStr t).isSome = true ∧
    plainMessages json e.hasLf behind = []

section
variable {json : SerdeJson} {jsonError : Text → Text} {id : ℕ} {stored : Option Text}
  {reply : HttpReply} {t : Text} {lines before behind tail : Stream} {fresh : Bool}
  {members : List (Text × Json)} {v : Json}

theorem plainMessages_subset : ∀ v ∈ plainMessages json fresh lines, v ∈ messages lines := by
  induction lines generalizing fresh with
  | nil => exact fun v h => h
  | cons line rest ih =>
    obtain ⟨l, e⟩ := line
    intro v hv
    cases l with
    | blank | comment t | field name value => exact ih v hv
    | data padded t value =>
      have hmessages : messages ((.data padded t value, e) :: rest) = value :: messages rest := rfl
      rw [hmessages, List.mem_cons]
      simp only [plainMessages] at hv
      split_ifs at hv
      · obtain rfl | hv := List.mem_cons.mp hv
        · exact Or.inl rfl
        · exact Or.inr (ih v hv)
      · exact Or.inr (ih v hv)

theorem plainMessages_append (fresh : Bool) (before tail : Stream) :
    ∃ vs, plainMessages json fresh (before ++ tail) =
        vs ++ plainMessages json (freshAfter fresh before) tail ∧
      ∀ v ∈ vs, v ∈ messages before := by
  induction before generalizing fresh with
  | nil => exact ⟨[], rfl, fun v h => h⟩
  | cons line rest ih =>
    obtain ⟨l, e⟩ := line
    obtain ⟨vs, hvs, hsub⟩ := ih e.hasLf
    cases l with
    | blank | comment t | field name value => exact ⟨vs, hvs, hsub⟩
    | data padded t value =>
      have hmessages : messages ((.data padded t value, e) :: rest) = value :: messages rest := rfl
      rw [List.cons_append, plainMessages, hmessages, hvs]
      split_ifs
      · exact ⟨value :: vs, rfl, List.forall_mem_cons.mpr
          ⟨List.mem_cons_self, fun v h => List.mem_cons_of_mem _ (hsub v h)⟩⟩
      · exact ⟨vs, rfl, fun v h => List.mem_cons_of_mem _ (hsub v h)⟩

/-- A foreign message is not taken for the answer. -/
theorem answerOf_foreign (h : IsForeign id v) : ∃ message, answerOf id v = .error (.invalid message) := by
  cases v with
  | object members =>
    rw [answerOf]
    split_ifs with hid
    · exact ⟨_, rfl⟩
    · obtain ⟨hresult, herror⟩ := h members rfl (not_not.mp hid)
      rw [resultOrError, hresult, herror]
      split_ifs <;> exact ⟨_, rfl⟩
  | null | bool _ | number _ | string _ | array _ => exact ⟨_, rfl⟩

theorem answerOf_response (h : IsResponse id members) :
    answerOf id (.object members) = resultOrError members := by
  rw [answerOf, if_neg (not_not.mpr h.id_eq)]

theorem resultOrError_response (h : IsResponse id members) :
    (∃ result, resultOrError members = .ok result) ∨
      ∃ code message, resultOrError members = .error (.rpc code message) := by
  rw [resultOrError, if_neg (not_not.mpr h.version)]
  cases herror : members.lookup "error".toList with
  | some error => exact Or.inr ⟨_, _, rfl⟩
  | none =>
    cases hresult : members.lookup "result".toList with
    | some result => exact Or.inl ⟨result, rfl⟩
    | none => exact absurd rfl (herror ▸ hresult ▸ h.outcome)

/-- The call on an event stream. -/
theorem rpc_stream (h : CarriesStream stored reply t) :
    (rpc json jsonError id stored reply).1 =
      if maxResponseBytes < byteLen t then .error (.responseTooLarge maxResponseBytes)
      else
        match (payloads json t).getLast? with
        | some value => answerOf id value
        | none => .error (.invalid "SSE response had no parseable data".toList) := by
  obtain ⟨s, hs⟩ := h.session
  have hbounded : readBounded reply maxResponseBytes =
      if maxResponseBytes < byteLen t then .error (.responseTooLarge maxResponseBytes)
      else .ok (.text t) := by
    rw [readBounded, h.body]
    cases hlength : reply.contentLength with
    | none => rfl
    | some n =>
      obtain rfl := h.contentLength n hlength
      by_cases hsize : maxResponseBytes < byteLen t <;> simp [hsize, Body.size]
  by_cases hsize : maxResponseBytes < byteLen t
  · rw [if_pos hsize] at hbounded ⊢
    unfold rpc
    rw [hs, hbounded]
  · rw [if_neg hsize] at hbounded ⊢
    unfold rpc
    rw [hs, hbounded, h.isSuccess]
    dsimp only
    rw [if_pos rfl, parseResponseValue, if_pos h.contentType, payloads]
    cases ((textLines t).filterMap (dataOf json)).getLast? <;> rfl

/-- When the last message that is read is foreign, the call fails, and not with its content. -/
theorem rpc_foreign (h : CarriesStream stored reply t)
    (hforeign : ∀ v, (payloads json t).getLast? = some v → IsForeign id v) :
    ∃ e, (rpc json jsonError id stored reply).1 = .error e ∧
      ∀ code message, e ≠ .rpc code message := by
  rw [rpc_stream h]
  split_ifs
  · exact ⟨_, rfl, fun _ _ heq => by cases heq⟩
  · cases hlast : (payloads json t).getLast? with
    | none => exact ⟨_, rfl, fun _ _ heq => by cases heq⟩
    | some v =>
      obtain ⟨message, hanswer⟩ := answerOf_foreign (hforeign v hlast)
      exact ⟨_, hanswer, fun _ _ heq => by cases heq⟩

/-- An error that is not of the far side is not what a response says. -/
theorem resultOrError_ne {e : McpError} (h : IsResponse id members)
    (he : ∀ code message, e ≠ .rpc code message) : Except.error e ≠ resultOrError members := by
  obtain ⟨result, hresult⟩ | ⟨code, message, herror⟩ := resultOrError_response h
  · rw [hresult]
    exact fun heq => by cases heq
  · rw [herror]
    exact fun heq => he code message (Except.error.inj heq)

end

/-- On every event stream with the response of the call among foreign messages, the call returns
what the response says exactly when it is the last message that can be read (and the stream is not
too long); without a response in it, the call fails. -/
theorem rpc_answers_iff {json : SerdeJson} {jsonError : Text → Text} {id : ℕ}
    {stored : Option Text} {reply : HttpReply} {bom : Bool} {lines : Stream}
    (hwf : ∀ line ∈ lines, line.1.WellFormed json)
    (hreply : CarriesStream stored reply (streamText bom lines)) :
    (∀ before padded t members e behind,
      lines = before ++ (.data padded t (.object members), e) :: behind →
      IsResponse id members → (∀ v ∈ messages before ++ messages behind, IsForeign id v) →
        ((rpc json jsonError id stored reply).1 = resultOrError members ↔
          ReadLast json bom before t e behind ∧
            byteLen (streamText bom lines) ≤ maxResponseBytes)) ∧
      ((∀ v ∈ messages lines, IsForeign id v) →
        ∃ e, (rpc json jsonError id stored reply).1 = .error e ∧
          ∀ code message, e ≠ .rpc code message) := by
  have hread := payloads_streamText hwf bom
  constructor
  · rintro before padded t members e behind rfl hresponse hforeign
    obtain ⟨vs, hvs, hsub⟩ := @plainMessages_append json (!bom) before
      ((.data padded t (.object members), e) :: behind)
    rw [hvs] at hread
    have hbefore : ∀ v ∈ vs, IsForeign id v := fun v hv =>
      hforeign v (List.mem_append_left _ (hsub v hv))
    have hbehind : ∀ v ∈ plainMessages json e.hasLf behind, IsForeign id v := fun v hv =>
      hforeign v (List.mem_append_right _ (plainMessages_subset v hv))
    have hfails : (∀ v, (payloads json (streamText bom (before ++
        (.data padded t (.object members), e) :: behind))).getLast? = some v → IsForeign id v) →
        (rpc json jsonError id stored reply).1 ≠ resultOrError members := by
      intro hlast
      obtain ⟨e, herror, he⟩ := @rpc_foreign json jsonError _ _ _ _ hreply hlast
      rw [herror]
      exact resultOrError_ne hresponse he
    rw [plainMessages] at hread
    by_cases hplain : (freshAfter (!bom) before && endsLine e behind && (json.fromStr t).isSome) = true
    · rw [if_pos hplain] at hread
      rw [Bool.and_eq_true, Bool.and_eq_true] at hplain
      obtain ⟨⟨hfresh, hend⟩, hsome⟩ := hplain
      by_cases hnone : plainMessages json e.hasLf behind = []
      · rw [hnone] at hread
        rw [rpc_stream hreply, hread, List.getLast?_concat]
        split_ifs with hsize
        · refine iff_of_false (resultOrError_ne hresponse fun _ _ heq => by cases heq) ?_
          exact fun h => absurd h.2 (by omega)
        · refine iff_of_true (answerOf_response hresponse) ?_
          exact ⟨⟨hfresh, hend, hsome, hnone⟩, by omega⟩
      · refine iff_of_false (hfails ?_) fun h => hnone h.1.2.2.2
        rw [hread, List.getLast?_append_of_ne_nil _ (List.cons_ne_nil _ _),
          List.getLast?_cons_of_ne_nil hnone]
        exact fun v hv => hbehind v (List.mem_of_getLast? hv)
    · rw [if_neg hplain] at hread
      refine iff_of_false (hfails ?_) ?_
      · rw [hread]
        intro v hv
        exact (List.mem_append.mp (List.mem_of_getLast? hv)).elim (hbefore v) (hbehind v)
      · rintro ⟨⟨hfresh, hend, hsome, -⟩, -⟩
        exact hplain (by rw [hfresh, hend, hsome]; rfl)
  · intro hforeign
    apply rpc_foreign hreply
    rw [hread]
    exact fun v hv => hforeign v (plainMessages_subset v (List.mem_of_getLast? hv))

/-! A sample: the server logs something behind its response. -/

def responseText : Text := "\x7b\"jsonrpc\":\"2.0\",\"id\":1,\"result\":\x7b\x7d\x7d".toList

def notificationText : Text := "\x7b\"jsonrpc\":\"2.0\",\"method\":\"notifications/message\"\x7d".toList

def responseMembers : List (Text × Json) :=
  [("jsonrpc".toList, .string "2.0".toList), ("id".toList, .number "1".toList),
    ("result".toList, .object [])]

def notificationMembers : List (Text × Json) :=
  [("jsonrpc".toList, .string "2.0".toList),
    ("method".toList, .string "notifications/message".toList)]

/-- A reader of two texts. -/
def twoTexts : SerdeJson where
  fromStr t :=
    if t = responseText then some (.object responseMembers)
    else if t = notificationText then some (.object notificationMembers)
    else none
  toText _ := []

def loggedStream : Stream :=
  [(.data true responseText (.object responseMembers), .lf), (.blank, .lf),
    (.data true notificationText (.object notificationMembers), .lf), (.blank, .lf)]

def loggedReply : HttpReply where
  contentType := some "text/event-stream".toList
  body := .text (streamText false loggedStream)

/-- What stands between other characters than blanks is not trimmed. -/
theorem mem_trim {t w : Text} {c : Char} (ht : allWhitespace t = false)
    (hw : allWhitespace w = false) : c ∈ trim (t ++ c :: w) := by
  have hkept : ∀ x y : Text, allWhitespace x = false →
      (x ++ y).dropWhile isWhitespace = x.dropWhile isWhitespace ++ y := by
    intro x y hx
    have hne : x.dropWhile isWhitespace ≠ [] := fun h =>
      Bool.eq_false_iff.mp hx (List.all_eq_true.mpr (List.dropWhile_eq_nil_iff.mp h))
    rw [List.dropWhile_append, if_neg (by simpa using hne)]
  have hreverse : allWhitespace w.reverse = false := by
    rw [allWhitespace, List.all_reverse]
    exact hw
  rw [trim, trimStart, hkept _ _ ht, trimEnd, List.reverse_append, List.reverse_cons,
    List.append_assoc, hkept _ _ hreverse, List.mem_reverse]
  apply List.mem_append_right
  exact List.mem_append_left _ List.mem_cons_self

theorem reads_twoTexts {t : Text} {value : Json} (ht : twoTexts.fromStr t = some value)
    (htrim : trim t = t) (hne : allWhitespace t = false) : StreamLine.Reads twoTexts t value where
  blanks w hw := by rw [trim_append_of_allWhitespace hw, htrim]
  trailing w hw := by
    have hmem : '\r' ∈ trim (t ++ '\r' :: w) := mem_trim hne hw
    have hresponse : trim (t ++ '\r' :: w) ≠ responseText := fun h =>
      absurd (h ▸ hmem) (by decide)
    have hnotification : trim (t ++ '\r' :: w) ≠ notificationText := fun h =>
      absurd (h ▸ hmem) (by decide)
    show (if _ then _ else if _ then _ else _) = _
    rw [if_neg hresponse, if_neg hnotification]
  value_eq v hv := Option.some.inj (hv.symm.trans ht)
  nonempty := hne

theorem loggedStream_wellFormed : ∀ line ∈ loggedStream, line.1.WellFormed twoTexts := by
  have hresponse : (StreamLine.data true responseText (.object responseMembers)).WellFormed
      twoTexts :=
    ⟨⟨by decide, by decide⟩, reads_twoTexts rfl (by decide) (by decide)⟩
  have hnotification : (StreamLine.data true notificationText (.object notificationMembers)).WellFormed
      twoTexts :=
    ⟨⟨by decide, by decide⟩, reads_twoTexts rfl (by decide) (by decide)⟩
  simp only [loggedStream, List.forall_mem_cons, List.not_mem_nil, false_implies, implies_true,
    and_true]
  exact ⟨hresponse, trivial, hnotification, trivial⟩

theorem loggedReply_carries : CarriesStream none loggedReply (streamText false loggedStream) where
  isSuccess := rfl
  contentType := by decide
  session := ⟨none, rfl⟩
  body := rfl
  contentLength _ h := by cases h

theorem responseMembers_response : IsResponse 1 responseMembers :=
  ⟨by decide, by decide, by decide⟩

theorem loggedStream_foreign : ∀ v ∈ messages loggedStream.tail, IsForeign 1 v := by
  intro v hv
  obtain rfl := List.mem_singleton.mp hv
  rintro members h -
  obtain rfl := Json.object.inj h
  exact ⟨by decide, by decide⟩

/-- The response is there, and the call fails. -/
theorem response_overlooked :
    loggedStream = [] ++ (.data true responseText (.object responseMembers), .lf) ::
        loggedStream.tail ∧ IsResponse 1 responseMembers ∧
      (∀ v ∈ messages loggedStream.tail, IsForeign 1 v) ∧
      (rpc twoTexts id 1 none loggedReply).1 ≠ resultOrError responseMembers := by
  refine ⟨rfl, responseMembers_response, loggedStream_foreign, ?_⟩
  have hread : plainMessages twoTexts true loggedStream =
      [.object responseMembers, .object notificationMembers] := rfl
  have hpayloads := payloads_streamText loggedStream_wellFormed false
  rw [Bool.not_false, hread] at hpayloads
  obtain ⟨e, herror, he⟩ := @rpc_foreign twoTexts id 1 _ _ _ loggedReply_carries (by
    rw [hpayloads]
    intro v hv
    exact loggedStream_foreign v (List.mem_singleton.mpr (Option.some.inj hv).symm))
  rw [herror]
  exact resultOrError_ne responseMembers_response he

/-- The main theorem on the sample. -/
theorem rpc_answers_iff_sample :
    ((rpc twoTexts id 1 none loggedReply).1 = resultOrError responseMembers ↔
      ReadLast twoTexts false [] responseText .lf loggedStream.tail ∧
        byteLen (streamText false loggedStream) ≤ maxResponseBytes) ∧
    ∃ e, (rpc twoTexts id 2 none loggedReply).1 = .error e ∧
      ∀ code message, e ≠ .rpc code message := by
  constructor
  · exact (rpc_answers_iff loggedStream_wellFormed loggedReply_carries).1 [] true responseText
      responseMembers .lf loggedStream.tail rfl responseMembers_response loggedStream_foreign
  · apply (rpc_answers_iff loggedStream_wellFormed loggedReply_carries).2
    have hmessages : messages loggedStream =
        [.object responseMembers, .object notificationMembers] := rfl
    rw [hmessages]
    intro v hv members h
    subst h
    rw [List.mem_cons, List.mem_singleton, Json.object.injEq, Json.object.injEq] at hv
    obtain rfl | rfl := hv
    · exact fun hid => absurd hid (by decide)
    · exact fun hid => absurd hid (by decide)

end DeepseekScience.Mcp
