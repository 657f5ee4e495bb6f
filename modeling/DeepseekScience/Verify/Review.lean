import Mathlib.Data.Char
import Mathlib.Data.List.Lex
import Mathlib.Data.List.Sort
import Mathlib.Data.Prod.Lex
import DeepseekScience.Agent.Gates
import DeepseekScience.Llm.Pairing

/-! The evidence that the reviewer sees of a run: the counts of every tool, the file operations
and the messages, each under a budget of characters. -/
namespace DeepseekScience.Verify

def maxReviewTraceChars : ℕ := 24000
def maxTraceEntryChars : ℕ := 2000
def maxToolActivitySummaryChars : ℕ := 4000
def maxMaterialToolAuditChars : ℕ := 8000
def maxMaterialArgumentChars : ℕ := 700
def maxMaterialResultChars : ℕ := 900

def truncateChars (value : Text) (maxChars : ℕ) (suffix : Text) : Text :=
  if value.length ≤ maxChars then value
  else if maxChars ≤ suffix.length then suffix.take maxChars
  else value.take (maxChars - suffix.length) ++ suffix

def truncateMiddleChars (value : Text) (maxChars : ℕ) (marker : Text) : Text :=
  if value.length ≤ maxChars then value
  else if maxChars ≤ marker.length then marker.take maxChars
  else
    let available := maxChars - marker.length
    let headLen := available / 2
    let tailLen := available - headLen
    value.take headLen ++ marker ++ value.drop (value.length - tailLen)

def sanitizeField (value : Text) (maxChars : ℕ) : Text :=
  truncateChars (value.map fun c => if isControl c then ' ' else c) maxChars "...".toList

def materialFileTools : List Text :=
  ["write_file".toList, "edit_file".toList, "read_file".toList]

def isMaterialFileTool (name : Text) : Bool := materialFileTools.contains name

def toolResultStatus (m : ChatMessage) : Text :=
  match m.isError with
  | some true => "error".toList
  | some false => "ok".toList
  | none => "unknown".toList

/-! The messages. -/

def renderTraceEntry (index : ℕ) (m : ChatMessage) : Text :=
  let lines := ["[".toList ++ natText (index + 1) ++ "] role=".toList ++ m.role.toText]
  let lines := lines ++
    if m.role = .tool then
      ["tool_meta: name=".toList ++ m.name.getD "unknown".toList ++ " call_id=".toList ++
        m.toolCallId.getD "unknown".toList ++ " status=".toList ++ toolResultStatus m]
    else []
  let lines := lines ++ (m.toolCalls.getD []).map fun call =>
    "tool_call: id=".toList ++ call.id ++ " name=".toList ++ call.function.name ++
      " arguments=".toList ++ call.function.arguments
  let lines := lines ++
    match m.content.filter fun content => !(trim content).isEmpty with
    | some content =>
      [(if m.role = .tool then "result".toList else "content".toList) ++ ": ".toList ++ content]
    | none => []
  truncateChars (joinText ['\n'] lines) maxTraceEntryChars "\n[entry truncated]".toList

/-! The counts of every tool. -/

structure ToolActivity where
  calls : ℕ := 0
  resultsOk : ℕ := 0
  resultsError : ℕ := 0
  resultsUnknown : ℕ := 0
  firstMessage : ℕ := 0
  lastMessage : ℕ := 0
  deriving DecidableEq

namespace ToolActivity

def updateMessageSpan (entry : ToolActivity) (messageNumber : ℕ) : ToolActivity :=
  { entry with
    firstMessage := if entry.firstMessage = 0 then messageNumber else entry.firstMessage
    lastMessage := messageNumber }

def addCall (entry : ToolActivity) : ToolActivity := { entry with calls := entry.calls + 1 }

def addResult (entry : ToolActivity) (isError : Option Bool) : ToolActivity :=
  match isError with
  | some true => { entry with resultsError := entry.resultsError + 1 }
  | some false => { entry with resultsOk := entry.resultsOk + 1 }
  | none => { entry with resultsUnknown := entry.resultsUnknown + 1 }

end ToolActivity

/-- The tools of the calls so far, by the id of the call, and what each tool has done. -/
structure ActivityLog where
  callNames : List (Text × Text) := []
  activity : List (Text × ToolActivity) := []

namespace ActivityLog

/-- `activity.entry(name).or_default()`. -/
def entry (log : ActivityLog) (name : Text) : ToolActivity := (log.activity.lookup name).getD {}

def recordCall (messageNumber : ℕ) (log : ActivityLog) (call : ToolCall) : ActivityLog :=
  { callNames := insertEntry call.id call.function.name log.callNames
    activity := insertEntry call.function.name
      ((log.entry call.function.name).addCall.updateMessageSpan messageNumber) log.activity }

/-- The tool that a result is counted under. -/
def resultName (callNames : List (Text × Text)) (m : ChatMessage) : Text :=
  (m.name.or (m.toolCallId.bind fun id => callNames.lookup id)).getD "unknown".toList

def recordResult (messageNumber : ℕ) (log : ActivityLog) (m : ChatMessage) : ActivityLog :=
  let name := resultName log.callNames m
  { log with
    activity := insertEntry name
      (((log.entry name).addResult m.isError).updateMessageSpan messageNumber) log.activity }

def recordMessage (messageNumber : ℕ) (log : ActivityLog) (m : ChatMessage) : ActivityLog :=
  let log := (m.toolCalls.getD []).foldl (recordCall messageNumber) log
  if m.role = .tool then log.recordResult messageNumber m else log

def recordMessages : ℕ → ActivityLog → List ChatMessage → ActivityLog
  | _, log, [] => log
  | index, log, m :: rest => recordMessages (index + 1) (recordMessage (index + 1) log m) rest

end ActivityLog

def summaryHeader : Text :=
  "tool activity summary (complete counts by tool identity; payload-independent):".toList

def summaryLine (name : Text) (entry : ToolActivity) : Text :=
  "- name=".toList ++ sanitizeField name 80 ++ " calls=".toList ++ natText entry.calls ++
    " results_ok=".toList ++ natText entry.resultsOk ++ " results_error=".toList ++
    natText entry.resultsError ++ " results_unknown=".toList ++ natText entry.resultsUnknown ++
    " message_span=".toList ++ natText entry.firstMessage ++ "..".toList ++
    natText entry.lastMessage

/-- File operations first, and then in the order of the names. -/
def sortActivity (activity : List (Text × ToolActivity)) : List (Text × ToolActivity) :=
  activity.insertionSort fun a b =>
    toLex (!isMaterialFileTool a.1, a.1) ≤ toLex (!isMaterialFileTool b.1, b.1)

def summarySuffix : Text := "\n[tool activity summary truncated]".toList

def renderToolActivitySummary (messages : List ChatMessage) : Text :=
  let activity := (ActivityLog.recordMessages 0 {} messages).activity
  if activity.isEmpty then []
  else
    truncateChars (joinText ['\n'] (summaryHeader ::
      (sortActivity activity).map fun (name, entry) => summaryLine name entry))
      maxToolActivitySummaryChars summarySuffix

/-! The file operations. -/

section
variable (json : SerdeJson)

/-- The members of the arguments that are copied. -/
def copiedArguments : List Text :=
  ["path".toList, "offset".toList, "limit".toList, "replace_all".toList]

/-- The members of the arguments of which only the size is told. -/
def measuredArguments : List Text :=
  ["content".toList, "old_string".toList, "new_string".toList]

def argumentsOmitted : Text := "...[arguments middle omitted]...".toList

def summarizeMaterialArguments (arguments : Text) : Text :=
  match json.fromStr arguments with
  | some (.object members) =>
    let summary := copiedArguments.foldl (fun summary key =>
      match members.lookup key with
      | some value => insertEntry key value summary
      | none => summary) []
    let summary := measuredArguments.foldl (fun summary key =>
      match members.lookup key with
      | some (.string value) =>
        insertEntry (key ++ "_bytes".toList) (.number (natText (byteLen value)))
          (insertEntry (key ++ "_chars".toList) (.number (natText value.length)) summary)
      | _ => summary) summary
    truncateMiddleChars (json.toText (.object summary)) maxMaterialArgumentChars argumentsOmitted
  | _ => truncateMiddleChars arguments maxMaterialArgumentChars argumentsOmitted

def materialLines (callNames : List (Text × Text)) (index : ℕ) (m : ChatMessage) : List Text :=
  (((m.toolCalls.getD []).filter fun call => isMaterialFileTool call.function.name).map fun call =>
    "[".toList ++ natText (index + 1) ++ "] material_tool_call: id=".toList ++
      sanitizeField call.id 96 ++ " name=".toList ++ call.function.name ++ " arguments=".toList ++
      summarizeMaterialArguments json call.function.arguments) ++
  if m.role = .tool then
    let name := ActivityLog.resultName callNames m
    if isMaterialFileTool name then
      ["[".toList ++ natText (index + 1) ++ "] material_tool_result: name=".toList ++ name ++
        " call_id=".toList ++ sanitizeField (m.toolCallId.getD "unknown".toList) 96 ++
        " status=".toList ++ toolResultStatus m ++ " result=".toList ++
        truncateMiddleChars (json.toText (.string (m.content.getD []))) maxMaterialResultChars
          "...[result middle omitted]...".toList]
    else []
  else []

def renderMaterialToolAudit (messages : List ChatMessage) : Text :=
  let callNames := (messages.flatMap fun m => m.toolCalls.getD []).foldl
    (fun names call => insertEntry call.id call.function.name names) []
  let lines := messages.zipIdx.flatMap fun (m, index) => materialLines json callNames index m
  if lines.isEmpty then []
  else
    truncateMiddleChars
      ("material file-operation audit (ordered; preserved before general trace truncation):\n".toList
        ++ joinText ['\n'] lines) maxMaterialToolAuditChars
      "\n[material tool audit middle truncated; complete counts remain above]\n".toList

/-! The trace. -/

def detailHeading : Text := "\n\nordered message detail:\n".toList

def renderRunTrace (messages : List ChatMessage) : Text :=
  let evidence := joinText ['\n', '\n'] ([renderToolActivitySummary messages,
    renderMaterialToolAudit json messages].filter fun part => !part.isEmpty)
  let entries := joinText ['\n'] (messages.zipIdx.map fun (m, index) => renderTraceEntry index m)
  let heading := if evidence.isEmpty then [] else detailHeading
  let detail := truncateMiddleChars entries
    (maxReviewTraceChars - (evidence.length + heading.length))
    "\n[trace middle truncated]\n".toList
  evidence ++ heading ++ detail

end

/-! The budgets. -/

theorem length_truncateChars_le (value : Text) (maxChars : ℕ) (suffix : Text) :
    (truncateChars value maxChars suffix).length ≤ maxChars := by
  unfold truncateChars
  split_ifs with hvalue hsuffix
  · exact hvalue
  · rw [List.length_take]
    omega
  · rw [List.length_append, List.length_take]
    omega

theorem length_truncateMiddleChars_le (value : Text) (maxChars : ℕ) (marker : Text) :
    (truncateMiddleChars value maxChars marker).length ≤ maxChars := by
  unfold truncateMiddleChars
  split_ifs with hvalue hmarker
  · exact hvalue
  · rw [List.length_take]
    omega
  · simp only [List.length_append, List.length_take, List.length_drop]
    omega

/-- What stands at the front of a text survives, when the budget leaves room for the suffix. -/
theorem truncateChars_append {front rest suffix : Text} {maxChars : ℕ}
    (h : front.length + suffix.length < maxChars) :
    ∃ rest', truncateChars (front ++ rest) maxChars suffix = front ++ rest' ∧
      (rest' = rest ∨ ∃ k, rest' = rest.take k ++ suffix) := by
  unfold truncateChars
  split_ifs with hvalue hsuffix
  · exact ⟨rest, rfl, Or.inl rfl⟩
  · omega
  · refine ⟨rest.take (maxChars - suffix.length - front.length) ++ suffix, ?_, Or.inr ⟨_, rfl⟩⟩
    rw [List.take_append, List.take_of_length_le (by omega), List.append_assoc]

theorem length_renderToolActivitySummary_le (messages : List ChatMessage) :
    (renderToolActivitySummary messages).length ≤ maxToolActivitySummaryChars := by
  unfold renderToolActivitySummary
  dsimp only
  split_ifs
  · exact Nat.zero_le _
  · exact length_truncateChars_le ..

theorem length_renderMaterialToolAudit_le (json : SerdeJson) (messages : List ChatMessage) :
    (renderMaterialToolAudit json messages).length ≤ maxMaterialToolAuditChars := by
  unfold renderMaterialToolAudit
  dsimp only
  split_ifs
  · exact Nat.zero_le _
  · exact length_truncateMiddleChars_le ..

/-- The evidence in front of the messages. -/
def reviewEvidence (json : SerdeJson) (messages : List ChatMessage) : Text :=
  joinText ['\n', '\n'] ([renderToolActivitySummary messages,
    renderMaterialToolAudit json messages].filter fun part => !part.isEmpty)

theorem reviewEvidence_eq (json : SerdeJson) (messages : List ChatMessage) :
    reviewEvidence json messages = renderToolActivitySummary messages ∨
    reviewEvidence json messages = renderMaterialToolAudit json messages ∨
    reviewEvidence json messages = renderToolActivitySummary messages ++ ['\n', '\n'] ++
      renderMaterialToolAudit json messages := by
  unfold reviewEvidence
  cases hs : renderToolActivitySummary messages <;>
    cases ha : renderMaterialToolAudit json messages <;>
    simp [joinText, List.intercalate]

theorem length_reviewEvidence_le (json : SerdeJson) (messages : List ChatMessage) :
    (reviewEvidence json messages).length ≤ 12002 := by
  have hsummary : (renderToolActivitySummary messages).length ≤ 4000 :=
    length_renderToolActivitySummary_le messages
  have haudit : (renderMaterialToolAudit json messages).length ≤ 8000 :=
    length_renderMaterialToolAudit_le json messages
  rcases reviewEvidence_eq json messages with h | h | h
  · rw [h]
    omega
  · rw [h]
    omega
  · simp only [h, List.length_append, List.length_cons, List.length_nil]
    omega

/-- The whole trace stays inside its budget. -/
theorem length_renderRunTrace_le (json : SerdeJson) (messages : List ChatMessage) :
    (renderRunTrace json messages).length ≤ maxReviewTraceChars := by
  have hevidence := length_reviewEvidence_le json messages
  have hheading : detailHeading.length = 26 := by decide
  have hmax : maxReviewTraceChars = 24000 := rfl
  unfold renderRunTrace
  rw [← reviewEvidence]
  dsimp only
  rw [List.length_append, List.length_append]
  have hshort : (if (reviewEvidence json messages).isEmpty then [] else detailHeading).length ≤
      26 := by
    split_ifs
    · exact Nat.zero_le _
    · exact le_of_eq hheading
  refine le_trans (Nat.add_le_add_left (length_truncateMiddleChars_le ..) _) ?_
  omega

/-! Lines of the evidence. -/

/-- The line stands in the text from its beginning to its end. -/
def HasLine (text line : Text) : Prop :=
  ∃ before after, text = before ++ '\n' :: line ++ after ∧
    (after = [] ∨ ∃ rest, after = '\n' :: rest)

theorem HasLine.append {text line rest : Text} (h : HasLine text line)
    (hrest : rest = [] ∨ ∃ rest', rest = '\n' :: rest') : HasLine (text ++ rest) line := by
  obtain ⟨before, after, rfl, hafter⟩ := h
  refine ⟨before, after ++ rest, by simp, ?_⟩
  rcases hafter with rfl | ⟨after, rfl⟩
  · exact hrest
  · exact Or.inr ⟨after ++ rest, rfl⟩

theorem HasLine.ne_nil {text line : Text} (h : HasLine text line) : text ≠ [] := by
  obtain ⟨before, after, rfl, -⟩ := h
  simp

/-- A line of the summary is a line of the trace. -/
theorem hasLine_renderRunTrace {json : SerdeJson} {messages : List ChatMessage} {line : Text}
    (h : HasLine (renderToolActivitySummary messages) line) :
    HasLine (renderRunTrace json messages) line := by
  have hevidence : HasLine (reviewEvidence json messages) line := by
    obtain ⟨c, summary, hsummary⟩ := List.exists_cons_of_ne_nil h.ne_nil
    unfold reviewEvidence
    rw [hsummary] at h ⊢
    cases haudit : renderMaterialToolAudit json messages with
    | nil => simpa [joinText, List.intercalate] using h
    | cons d audit =>
      have hjoin : HasLine ((c :: summary) ++ '\n' :: '\n' :: d :: audit) line :=
        h.append (Or.inr ⟨_, rfl⟩)
      simpa [joinText, List.intercalate] using hjoin
  have hne : (reviewEvidence json messages).isEmpty = false := by
    rw [List.isEmpty_eq_false_iff]
    exact hevidence.ne_nil
  unfold renderRunTrace
  rw [← reviewEvidence]
  dsimp only
  rw [hne, List.append_assoc]
  exact hevidence.append (Or.inr ⟨_, rfl⟩)

theorem joinText_newline (first : Text) (parts : List Text) :
    joinText ['\n'] (first :: parts) = first ++ parts.flatMap fun part => '\n' :: part := by
  induction parts generalizing first with
  | nil => simp [joinText, List.intercalate]
  | cons part parts ih =>
    have hcons : joinText ['\n'] (first :: part :: parts) =
        first ++ '\n' :: joinText ['\n'] (part :: parts) := by
      simp [joinText, List.intercalate]
    rw [hcons, ih, List.flatMap_cons, List.cons_append]

theorem flatMap_newline (parts : List Text) :
    (parts.flatMap fun part => '\n' :: part) = [] ∨
      ∃ rest, (parts.flatMap fun part => '\n' :: part) = '\n' :: rest := by
  cases parts with
  | nil => exact Or.inl rfl
  | cons part parts => exact Or.inr ⟨_, rfl⟩

theorem length_flatMap_newline_le {bound : ℕ} {parts : List Text}
    (h : ∀ part ∈ parts, part.length ≤ bound) :
    (parts.flatMap fun part => '\n' :: part).length ≤ parts.length * (bound + 1) := by
  induction parts with
  | nil => exact Nat.zero_le _
  | cons part parts ih =>
    obtain ⟨hpart, hparts⟩ := List.forall_mem_cons.mp h
    have hrest := ih hparts
    rw [List.flatMap_cons, List.length_append, List.length_cons, List.length_cons, Nat.succ_mul]
    omega

/-- Lines in front of the cut survive it whole. -/
theorem hasLine_truncateChars {header line suffix : Text} {before after : List Text}
    {maxChars : ℕ} (hsuffix : ∃ rest, suffix = '\n' :: rest)
    (h : (header ++ (before.flatMap fun part => '\n' :: part) ++ '\n' :: line).length +
      suffix.length < maxChars) :
    HasLine (truncateChars (joinText ['\n'] (header :: (before ++ line :: after))) maxChars
      suffix) line := by
  have hjoin : joinText ['\n'] (header :: (before ++ line :: after)) =
      (header ++ (before.flatMap fun part => '\n' :: part) ++ '\n' :: line) ++
        after.flatMap fun part => '\n' :: part := by
    rw [joinText_newline, List.flatMap_append, List.flatMap_cons]
    simp
  obtain ⟨rest, htext, hrest⟩ :=
    @truncateChars_append _ (after.flatMap fun part => '\n' :: part) _ _ h
  rw [hjoin, htext]
  refine ⟨_, rest, rfl, ?_⟩
  rcases hrest with rfl | ⟨k, rfl⟩
  · exact flatMap_newline after
  · right
    obtain ⟨more, rfl⟩ := hsuffix
    rcases flatMap_newline after with hnil | ⟨tail, hcons⟩
    · exact ⟨more, by rw [hnil, List.take_nil, List.nil_append]⟩
    · rw [hcons]
      cases k with
      | zero => exact ⟨more, rfl⟩
      | succ k => exact ⟨tail.take k ++ '\n' :: more, rfl⟩

/-! The order of the summary. -/

/-- The entries of a map stand in the order of their keys. -/
def SortedEntries {α : Type} (entries : List (Text × α)) : Prop :=
  entries.Pairwise fun a b => a.1 < b.1

theorem mem_keys_insertEntry {α : Type} {key : Text} {value : α} {entries : List (Text × α)}
    {e : Text × α} (h : e ∈ insertEntry key value entries) : e.1 = key ∨ e ∈ entries := by
  induction entries with
  | nil =>
    rw [insertEntry, List.mem_singleton] at h
    exact Or.inl (by rw [h])
  | cons head rest ih =>
    obtain ⟨k, v⟩ := head
    rw [insertEntry] at h
    split_ifs at h
    · rcases List.mem_cons.mp h with rfl | h
      · exact Or.inl rfl
      · exact Or.inr (List.mem_cons_of_mem _ h)
    · rcases List.mem_cons.mp h with rfl | h
      · exact Or.inl rfl
      · exact Or.inr h
    · rcases List.mem_cons.mp h with rfl | h
      · exact Or.inr (List.mem_cons_self ..)
      · exact (ih h).imp_right (List.mem_cons_of_mem _)

theorem SortedEntries.insertEntry {α : Type} {entries : List (Text × α)} (h : SortedEntries entries)
    (key : Text) (value : α) : SortedEntries (insertEntry key value entries) := by
  induction entries with
  | nil => exact List.pairwise_singleton ..
  | cons head rest ih =>
    obtain ⟨k, v⟩ := head
    obtain ⟨hhead, hrest⟩ := List.pairwise_cons.mp h
    unfold SortedEntries
    rw [DeepseekScience.insertEntry]
    split_ifs with heq hlt
    · subst heq
      exact List.pairwise_cons.mpr ⟨hhead, hrest⟩
    · refine List.pairwise_cons.mpr ⟨fun e he => ?_, h⟩
      rcases List.mem_cons.mp he with rfl | he
      · exact hlt
      · exact lt_trans hlt (hhead e he)
    · refine List.pairwise_cons.mpr ⟨fun e he => ?_, ih hrest⟩
      rcases mem_keys_insertEntry he with hkey | he
      · rw [hkey]
        exact lt_of_le_of_ne (le_of_not_gt hlt) (Ne.symm heq)
      · exact hhead e he

theorem SortedEntries.lookup_of_mem {α : Type} {entries : List (Text × α)}
    (h : SortedEntries entries) {e : Text × α} (he : e ∈ entries) :
    entries.lookup e.1 = some e.2 := by
  induction entries with
  | nil => exact absurd he List.not_mem_nil
  | cons head rest ih =>
    obtain ⟨k, v⟩ := head
    obtain ⟨hhead, hrest⟩ := List.pairwise_cons.mp h
    rcases List.mem_cons.mp he with rfl | he
    · simp
    · have hne : e.1 ≠ k := (ne_of_lt (hhead e he)).symm
      simp [List.lookup_cons, beq_eq_false_iff_ne.mpr hne, ih hrest he]

namespace ActivityLog

variable {log : ActivityLog}

theorem sorted_recordCall (h : SortedEntries log.activity) (n : ℕ) (call : ToolCall) :
    SortedEntries (recordCall n log call).activity := h.insertEntry _ _

theorem sorted_recordMessage (h : SortedEntries log.activity) (n : ℕ) (m : ChatMessage) :
    SortedEntries (recordMessage n log m).activity := by
  have hcalls : ∀ (calls : List ToolCall) (log : ActivityLog), SortedEntries log.activity →
      SortedEntries (calls.foldl (recordCall n) log).activity := by
    intro calls
    induction calls with
    | nil => exact fun _ h => h
    | cons call calls ih => exact fun log h => ih _ (sorted_recordCall h n call)
  unfold recordMessage
  dsimp only
  split_ifs
  · exact (hcalls _ _ h).insertEntry _ _
  · exact hcalls _ _ h

theorem sorted_recordMessages (h : SortedEntries log.activity) (index : ℕ)
    (messages : List ChatMessage) :
    SortedEntries (recordMessages index log messages).activity := by
  induction messages generalizing index log with
  | nil => exact h
  | cons m rest ih => exact ih (sorted_recordMessage h _ m) _

end ActivityLog

theorem sortActivity_perm (activity : List (Text × ToolActivity)) :
    (sortActivity activity).Perm activity := List.perm_insertionSort _ _

/-- Only file operations stand in front of a file operation. -/
theorem sortActivity_material {activity before after : List (Text × ToolActivity)}
    {e : Text × ToolActivity} (hsplit : sortActivity activity = before ++ e :: after)
    (he : isMaterialFileTool e.1 = true) : ∀ x ∈ before, isMaterialFileTool x.1 = true := by
  have : Std.Total fun a b : Text × ToolActivity =>
      toLex (!isMaterialFileTool a.1, a.1) ≤ toLex (!isMaterialFileTool b.1, b.1) :=
    ⟨fun a b => le_total _ _⟩
  have : IsTrans (Text × ToolActivity) fun a b =>
      toLex (!isMaterialFileTool a.1, a.1) ≤ toLex (!isMaterialFileTool b.1, b.1) :=
    ⟨fun _ _ _ => le_trans⟩
  have hsorted : (sortActivity activity).Pairwise fun a b =>
      toLex (!isMaterialFileTool a.1, a.1) ≤ toLex (!isMaterialFileTool b.1, b.1) :=
    List.pairwise_insertionSort _ _
  rw [hsplit, List.pairwise_append] at hsorted
  intro x hx
  have hle := hsorted.2.2 x hx e (List.mem_cons_self ..)
  rw [Prod.Lex.le_iff, he] at hle
  rcases hle with hlt | ⟨heq, -⟩
  · by_contra hne
    rw [Bool.not_eq_true] at hne
    simp only [hne] at hlt
    have hlt' : (true : Bool) < false := hlt
    exact absurd hlt' (by decide)
  · simpa using heq

/-- At most the three file operations stand in front of the others. -/
theorem length_before_le {activity before after : List (Text × ToolActivity)}
    {e : Text × ToolActivity} (hactivity : SortedEntries activity)
    (hsplit : sortActivity activity = before ++ e :: after)
    (he : isMaterialFileTool e.1 = true) : before.length ≤ 2 := by
  have hnodup : ((sortActivity activity).map Prod.fst).Nodup := by
    rw [((sortActivity_perm activity).map _).nodup_iff]
    exact List.pairwise_map.mpr (hactivity.imp fun hlt => ne_of_lt hlt)
  have hfront : ((before ++ [e]).map Prod.fst).Nodup := by
    rw [hsplit] at hnodup
    refine hnodup.sublist (List.Sublist.map _ ?_)
    exact (List.Sublist.refl before).append (List.singleton_sublist.mpr (List.mem_cons_self ..))
  have hsub : (before ++ [e]).map Prod.fst ⊆ materialFileTools := by
    intro name hname
    obtain ⟨x, hx, rfl⟩ := List.mem_map.mp hname
    have hx' : isMaterialFileTool x.1 = true := by
      rcases List.mem_append.mp hx with hx | hx
      · exact sortActivity_material hsplit he x hx
      · rw [List.mem_singleton.mp hx]
        exact he
    exact List.contains_iff_mem.mp hx'
  have hlength := (List.subperm_of_subset hfront hsub).length_le
  have hthree : materialFileTools.length = 3 := rfl
  rw [List.length_map, List.length_append, List.length_singleton] at hlength
  omega

/-! The length of a line. -/

theorem length_natText_le_twenty {n : ℕ} (h : n < 2 ^ 64) : (natText n).length ≤ 20 :=
  (Nat.length_toDigits_le_iff (by decide) (by decide)).mpr (by omega)

/-- The counts of a tool fit into machine words. -/
structure ToolActivity.Fits (entry : ToolActivity) : Prop where
  calls : entry.calls < 2 ^ 64
  resultsOk : entry.resultsOk < 2 ^ 64
  resultsError : entry.resultsError < 2 ^ 64
  resultsUnknown : entry.resultsUnknown < 2 ^ 64
  firstMessage : entry.firstMessage < 2 ^ 64
  lastMessage : entry.lastMessage < 2 ^ 64

theorem sanitizeField_material {name : Text} (h : isMaterialFileTool name = true) :
    (sanitizeField name 80).length ≤ 10 := by
  have hall : materialFileTools.all fun name => decide ((sanitizeField name 80).length ≤ 10) := by
    decide
  exact of_decide_eq_true (List.all_eq_true.mp hall name (List.contains_iff_mem.mp h))

theorem length_summaryLine_le {name : Text} {entry : ToolActivity}
    (hname : isMaterialFileTool name = true) (h : entry.Fits) :
    (summaryLine name entry).length ≤ 250 := by
  have hfield := sanitizeField_material hname
  have hcalls := length_natText_le_twenty h.calls
  have hok := length_natText_le_twenty h.resultsOk
  have herror := length_natText_le_twenty h.resultsError
  have hunknown := length_natText_le_twenty h.resultsUnknown
  have hfirst := length_natText_le_twenty h.firstMessage
  have hlast := length_natText_le_twenty h.lastMessage
  have hlabels : "- name=".toList.length = 7 ∧ " calls=".toList.length = 7 ∧
      " results_ok=".toList.length = 12 ∧ " results_error=".toList.length = 15 ∧
      " results_unknown=".toList.length = 17 ∧ " message_span=".toList.length = 14 ∧
      "..".toList.length = 2 := by decide
  obtain ⟨h₁, h₂, h₃, h₄, h₅, h₆, h₇⟩ := hlabels
  unfold summaryLine
  generalize sanitizeField name 80 = field at hfield ⊢
  generalize natText entry.calls = calls at hcalls ⊢
  generalize natText entry.resultsOk = ok at hok ⊢
  generalize natText entry.resultsError = error at herror ⊢
  generalize natText entry.resultsUnknown = unknown at hunknown ⊢
  generalize natText entry.firstMessage = first at hfirst ⊢
  generalize natText entry.lastMessage = last at hlast ⊢
  simp only [List.length_append, h₁, h₂, h₃, h₄, h₅, h₆, h₇]
  omega

/-- The line of a file operation that the log knows survives the cut of the summary. -/
theorem hasLine_renderToolActivitySummary {messages : List ChatMessage} {name : Text}
    {entry : ToolActivity} (hname : isMaterialFileTool name = true) (hfits :
      ∀ e ∈ (ActivityLog.recordMessages 0 {} messages).activity, e.2.Fits)
    (hentry : (name, entry) ∈ (ActivityLog.recordMessages 0 {} messages).activity) :
    HasLine (renderToolActivitySummary messages) (summaryLine name entry) := by
  have hempty : SortedEntries ({} : ActivityLog).activity := List.Pairwise.nil
  have hsorted := ActivityLog.sorted_recordMessages hempty 0 messages
  have hperm := sortActivity_perm (ActivityLog.recordMessages 0 {} messages).activity
  obtain ⟨before, after, hsplit⟩ := List.append_of_mem (hperm.mem_iff.mpr hentry)
  have hcount := length_before_le hsorted hsplit hname
  have hlines : ∀ part ∈ before.map fun e => summaryLine e.1 e.2, part.length ≤ 250 := by
    intro part hpart
    obtain ⟨e, he, rfl⟩ := List.mem_map.mp hpart
    have hmem : e ∈ sortActivity (ActivityLog.recordMessages 0 {} messages).activity := by
      rw [hsplit]
      exact List.mem_append_left _ he
    exact length_summaryLine_le (sortActivity_material hsplit hname e he)
      (hfits e (hperm.mem_iff.mp hmem))
  have hbefore := length_flatMap_newline_le hlines
  have hline : (summaryLine name entry).length ≤ 250 :=
    length_summaryLine_le hname (hfits _ hentry)
  have hheader : summaryHeader.length = 78 := by decide
  have hsuffix : summarySuffix.length = 34 := by decide
  rw [List.length_map] at hbefore
  unfold renderToolActivitySummary
  dsimp only
  rw [if_neg (by rw [List.isEmpty_iff]; exact List.ne_nil_of_mem hentry), hsplit, List.map_append,
    List.map_cons]
  apply hasLine_truncateChars ⟨"[tool activity summary truncated]".toList, by decide⟩
  have hmax : maxToolActivitySummaryChars = 4000 := rfl
  have hproduct : before.length * (250 + 1) ≤ 2 * 251 := Nat.mul_le_mul_right _ hcount
  rw [List.length_append, List.length_append, List.length_cons, hheader, hsuffix, hmax]
  dsimp only
  omega

/-! The counts. -/

/-- The calls of a tool. -/
def callsOf (messages : List ChatMessage) (tool : Text) : ℕ :=
  (messages.flatMap fun m => m.toolCalls.getD []).countP fun call =>
    decide (call.function.name = tool)

/-- The results with a status that answer a call of the tool. -/
def resultsOf (messages : List ChatMessage) (tool : Text) (isError : Option Bool) : ℕ :=
  (pairedResults messages).countP fun r =>
    decide (r.call.function.name = tool ∧ r.message.isError = isError)

/-- The name under which a result is counted: its own one, or that of the call. -/
def countedName (r : PairedResult) : Text := r.message.name.getD r.call.function.name

/-- The results of an entry with a status. -/
def ToolActivity.results (entry : ToolActivity) : Option Bool → ℕ
  | some true => entry.resultsError
  | some false => entry.resultsOk
  | none => entry.resultsUnknown

namespace ToolActivity

variable (entry : ToolActivity) (n : ℕ) (isError status : Option Bool)

@[simp] theorem calls_updateMessageSpan : (entry.updateMessageSpan n).calls = entry.calls := rfl

@[simp] theorem calls_addCall : entry.addCall.calls = entry.calls + 1 := rfl

@[simp] theorem calls_addResult : (entry.addResult isError).calls = entry.calls := by
  rcases isError with _ | _ | _ <;> rfl

@[simp] theorem results_updateMessageSpan :
    (entry.updateMessageSpan n).results status = entry.results status := by
  rcases status with _ | _ | _ <;> rfl

@[simp] theorem results_addCall : entry.addCall.results status = entry.results status := by
  rcases status with _ | _ | _ <;> rfl

@[simp] theorem results_addResult : (entry.addResult isError).results status =
    entry.results status + if isError = status then 1 else 0 := by
  rcases isError with _ | _ | _ <;> rcases status with _ | _ | _ <;> rfl

end ToolActivity

namespace ActivityLog

variable {log : ActivityLog} {tool : Text}

theorem entry_recordCall (n : ℕ) (call : ToolCall) : (recordCall n log call).entry tool =
    if tool = call.function.name then (log.entry tool).addCall.updateMessageSpan n
    else log.entry tool := by
  unfold recordCall entry
  dsimp only
  rw [lookup_insertEntry]
  split_ifs with h
  · rw [h, Option.getD_some]
  · rfl

theorem entry_recordResult (n : ℕ) (m : ChatMessage) : (log.recordResult n m).entry tool =
    if tool = resultName log.callNames m then
      ((log.entry tool).addResult m.isError).updateMessageSpan n
    else log.entry tool := by
  unfold recordResult entry
  dsimp only
  rw [lookup_insertEntry]
  split_ifs with h
  · rw [h, Option.getD_some]
  · rfl

theorem calls_recordCalls (n : ℕ) (calls : List ToolCall) :
    ((calls.foldl (recordCall n) log).entry tool).calls =
      (log.entry tool).calls + calls.countP fun call => decide (call.function.name = tool) := by
  induction calls generalizing log with
  | nil => rfl
  | cons call calls ih =>
    rw [List.foldl_cons, ih, entry_recordCall, List.countP_cons]
    by_cases h : call.function.name = tool
    · rw [if_pos h.symm, if_pos (decide_eq_true h)]
      simp only [ToolActivity.calls_updateMessageSpan, ToolActivity.calls_addCall]
      omega
    · rw [if_neg (Ne.symm h), if_neg (by simpa using h)]
      omega

theorem results_recordCalls (n : ℕ) (calls : List ToolCall) (status : Option Bool) :
    ((calls.foldl (recordCall n) log).entry tool).results status =
      (log.entry tool).results status := by
  induction calls generalizing log with
  | nil => rfl
  | cons call calls ih =>
    rw [List.foldl_cons, ih, entry_recordCall]
    split_ifs
    · simp only [ToolActivity.results_updateMessageSpan, ToolActivity.results_addCall]
    · rfl

/-- The calls of a message replace what older messages called by their ids. -/
theorem callNames_recordCalls (n : ℕ) {calls : List ToolCall} (hnodup : (calls.map ToolCall.id).Nodup)
    {call : ToolCall} (hcall : call ∈ calls) :
    (calls.foldl (recordCall n) log).callNames.lookup call.id = some call.function.name := by
  have hkeep : ∀ (calls : List ToolCall) (log : ActivityLog), call.id ∉ calls.map ToolCall.id →
      (calls.foldl (recordCall n) log).callNames.lookup call.id =
        log.callNames.lookup call.id := by
    intro calls
    induction calls with
    | nil => exact fun _ _ => rfl
    | cons other calls ih =>
      intro log hnot
      rw [List.map_cons, List.mem_cons, not_or] at hnot
      rw [List.foldl_cons, ih _ hnot.2, recordCall, lookup_insertEntry, if_neg hnot.1]
  induction calls generalizing log with
  | nil => exact absurd hcall List.not_mem_nil
  | cons other calls ih =>
    rw [List.map_cons, List.nodup_cons] at hnodup
    rcases List.mem_cons.mp hcall with rfl | hcall
    · rw [List.foldl_cons, hkeep _ _ hnodup.1, recordCall, lookup_insertEntry, if_pos rfl]
    · exact ih hnodup.2 hcall

/-- The log knows the calls of the nearest turn. -/
def Knows (log : ActivityLog) (turn : Turn) : Prop :=
  ∀ call ∈ turn.calls, log.callNames.lookup call.id = some call.function.name

theorem knows_recordMessage {turn : Turn} {m : ChatMessage} (index n : ℕ) (h : Knows log turn)
    (hnodup : ((m.toolCalls.getD []).map ToolCall.id).Nodup) :
    Knows (recordMessage n log m) (turn.next index m) := by
  have hcallNames : (recordMessage n log m).callNames =
      ((m.toolCalls.getD []).foldl (recordCall n) log).callNames := by
    unfold recordMessage
    dsimp only
    split_ifs <;> rfl
  intro call hcall
  rw [hcallNames]
  unfold Turn.next at hcall
  split_ifs at hcall with hnil
  · rw [hnil]
    exact h call hcall
  · exact callNames_recordCalls n hnodup hcall

/-- A result is counted under its own name, or under the tool of the call that it answers. -/
theorem resultName_eq {turn : Turn} {m : ChatMessage} {call : ToolCall} (h : Knows log turn)
    (hanswered : turn.answered m = some call) (index : ℕ) :
    resultName log.callNames m = countedName ⟨m, call, index⟩ := by
  have hid : m.toolCallId = some call.id := by
    have hfound := List.find?_some hanswered
    simpa using hfound
  have hlookup := h call (List.mem_of_find?_eq_some hanswered)
  unfold resultName countedName
  rw [hid, Option.bind_some, hlookup]
  cases m.name <;> rfl

/-- The counts of every tool, by induction on the messages: ids that later turns reuse are
overwritten before the results of these turns follow. -/
theorem counts_recordMessages {messages : List ChatMessage} {index : ℕ} {turn : Turn}
    (hpaired : PairedFrom index turn messages) (hknows : Knows log turn) :
    ((recordMessages index log messages).entry tool).calls =
        (log.entry tool).calls + callsOf messages tool ∧
      ∀ status, ((recordMessages index log messages).entry tool).results status =
        (log.entry tool).results status + (pairedResultsFrom index turn messages).countP fun r =>
          decide (countedName r = tool ∧ r.message.isError = status) := by
  induction messages generalizing index turn log with
  | nil => exact ⟨rfl, fun _ => rfl⟩
  | cons m rest ih =>
    obtain ⟨hanswer, hcallers, hnodup, hrest⟩ := hpaired
    obtain ⟨hcalls, hresults⟩ := ih hrest (knows_recordMessage index (index + 1) hknows hnodup)
    rw [recordMessages]
    simp only [hcalls, hresults]
    unfold callsOf
    rw [List.flatMap_cons, List.countP_append]
    by_cases hrole : m.role = .tool
    · obtain ⟨call, hcall⟩ := Option.isSome_iff_exists.mp (hanswer hrole)
      have hnone : m.toolCalls.getD [] = [] := hcallers (by rw [hrole]; decide)
      have hrecord : recordMessage (index + 1) log m = log.recordResult (index + 1) m := by
        unfold recordMessage
        rw [hnone, List.foldl_nil, if_pos hrole]
      have hentry := @entry_recordResult log tool (index + 1) m
      rw [resultName_eq hknows hcall turn.index] at hentry
      rw [hrecord, hentry, hnone]
      constructor
      · split_ifs <;> simp
      · intro status
        rw [pairedResultsFrom, if_pos hrole, hcall, Option.map_some, Option.toList_some,
          List.singleton_append, List.countP_cons]
        by_cases hname : countedName ⟨m, call, turn.index⟩ = tool
        · rw [if_pos hname.symm]
          by_cases hstatus : m.isError = status
          · simp [hname, hstatus]
            omega
          · simp [hname, hstatus]
        · rw [if_neg (Ne.symm hname)]
          simp [hname]
    · have hrecord : recordMessage (index + 1) log m =
          (m.toolCalls.getD []).foldl (recordCall (index + 1)) log := by
        unfold recordMessage
        rw [if_neg hrole]
      rw [hrecord, calls_recordCalls]
      constructor
      · omega
      · intro status
        rw [results_recordCalls, pairedResultsFrom, if_neg hrole, List.nil_append]

/-- No entry reaches behind the last message. -/
def Within (log : ActivityLog) (n : ℕ) : Prop :=
  ∀ tool, (log.entry tool).firstMessage ≤ n ∧ (log.entry tool).lastMessage ≤ n

theorem updateMessageSpan_le {entry : ToolActivity} {n last : ℕ} (hn : n ≤ last)
    (h : entry.firstMessage ≤ last) : (entry.updateMessageSpan n).firstMessage ≤ last ∧
      (entry.updateMessageSpan n).lastMessage ≤ last := by
  refine ⟨?_, hn⟩
  unfold ToolActivity.updateMessageSpan
  dsimp only
  split_ifs
  · exact hn
  · exact h

theorem within_recordCalls {n last : ℕ} (hn : n ≤ last) (calls : List ToolCall)
    (h : Within log last) : Within (calls.foldl (recordCall n) log) last := by
  induction calls generalizing log with
  | nil => exact h
  | cons call calls ih =>
    apply ih
    intro tool
    rw [entry_recordCall]
    split_ifs
    · exact updateMessageSpan_le hn (h tool).1
    · exact h tool

theorem within_recordResult {n last : ℕ} (hn : n ≤ last) (m : ChatMessage) (h : Within log last) :
    Within (log.recordResult n m) last := by
  intro tool
  rw [entry_recordResult]
  split_ifs
  · have hkeep : ((log.entry tool).addResult m.isError).firstMessage =
        (log.entry tool).firstMessage := by
      rcases m.isError with _ | _ | _ <;> rfl
    exact updateMessageSpan_le hn (hkeep ▸ (h tool).1)
  · exact h tool

theorem within_recordMessages {index last : ℕ} {messages : List ChatMessage}
    (hlast : index + messages.length ≤ last) (h : Within log last) :
    Within (recordMessages index log messages) last := by
  induction messages generalizing index log with
  | nil => exact h
  | cons m rest ih =>
    rw [List.length_cons] at hlast
    apply ih (by omega)
    unfold recordMessage
    dsimp only
    split_ifs
    · exact within_recordResult (by omega) m (within_recordCalls (by omega) _ h)
    · exact within_recordCalls (by omega) _ h

end ActivityLog

theorem length_pairedResultsFrom_le (index : ℕ) (turn : Turn) (messages : List ChatMessage) :
    (pairedResultsFrom index turn messages).length ≤ messages.length := by
  induction messages generalizing index turn with
  | nil => exact Nat.zero_le _
  | cons m rest ih =>
    have hrest := ih (index + 1) (turn.next index m)
    rw [pairedResultsFrom, List.length_append, List.length_cons]
    have hone : (if m.role = .tool then
        ((turn.answered m).map fun call => (⟨m, call, turn.index⟩ : PairedResult)).toList
        else []).length ≤ 1 := by
      split_ifs
      · cases turn.answered m <;> simp
      · exact Nat.zero_le _
    omega

/-- The messages and their calls fit into the memory of the 64-bit target. -/
structure FitsMemory (messages : List ChatMessage) : Prop where
  length : messages.length < 2 ^ 64
  calls : (messages.flatMap fun m => m.toolCalls.getD []).length < 2 ^ 64

/-- The results that carry a name carry that of the tool they answer. -/
def NamesTools (messages : List ChatMessage) : Prop :=
  ∀ r ∈ pairedResults messages, ∀ name ∈ r.message.name, name = r.call.function.name

/-- The Runner names the results as their calls. -/
theorem resultMessage_names {turn : Turn} {r : Tools.ToolResult} {call : ToolCall}
    (h : turn.answered (Agent.resultMessage turn.calls r) = some call) :
    (Agent.resultMessage turn.calls r).name = some call.function.name := by
  have hfind : (turn.calls.find? fun call => call.id == r.toolUseId) = some call := by
    rw [← h]
    unfold Turn.answered
    congr 1
    funext call
    simp [Agent.resultMessage, ChatMessage.ofTool, Bool.beq_comm]
  simp only [Agent.resultMessage, ChatMessage.ofTool, hfind, Option.map_some]

section
variable {messages : List ChatMessage} {tool : Text}

/-- The log of a whole history. -/
theorem entry_recordMessages (h : Paired messages) :
    ((ActivityLog.recordMessages 0 {} messages).entry tool).calls = callsOf messages tool ∧
      ∀ status, ((ActivityLog.recordMessages 0 {} messages).entry tool).results status =
        (pairedResults messages).countP fun r =>
          decide (countedName r = tool ∧ r.message.isError = status) := by
  have hknows : ActivityLog.Knows {} {} := fun call hcall => absurd hcall List.not_mem_nil
  have hcounts := @ActivityLog.counts_recordMessages {} tool _ _ _ h hknows
  have hzero : ({} : ActivityLog).entry tool = {} := rfl
  have hresults : ∀ status, ({} : ToolActivity).results status = 0 := by
    rintro (_ | _ | _) <;> rfl
  simp only [hzero, hresults, zero_add] at hcounts
  exact hcounts

theorem fits_recordMessages (h : Paired messages) (hsize : FitsMemory messages) :
    ∀ e ∈ (ActivityLog.recordMessages 0 {} messages).activity, e.2.Fits := by
  intro e he
  have hempty : SortedEntries ({} : ActivityLog).activity := List.Pairwise.nil
  have hentry : (ActivityLog.recordMessages 0 {} messages).entry e.1 = e.2 := by
    unfold ActivityLog.entry
    rw [(ActivityLog.sorted_recordMessages hempty 0 messages).lookup_of_mem he, Option.getD_some]
  obtain ⟨hcalls, hresults⟩ := @entry_recordMessages _ e.1 h
  rw [hentry] at hcalls hresults
  have hlength := length_pairedResultsFrom_le 0 {} messages
  have hbound : ∀ status, e.2.results status < 2 ^ 64 := by
    intro status
    rw [hresults]
    exact lt_of_le_of_lt (List.countP_le_length.trans hlength) hsize.length
  have hzero : ActivityLog.Within {} messages.length := fun _ => ⟨Nat.zero_le _, Nat.zero_le _⟩
  have hspan := ActivityLog.within_recordMessages (le_of_eq (Nat.zero_add messages.length)) hzero e.1
  rw [hentry] at hspan
  refine ⟨?_, hbound (some false), hbound (some true), hbound none, ?_, ?_⟩
  · rw [hcalls]
    exact lt_of_le_of_lt List.countP_le_length hsize.calls
  · exact lt_of_le_of_lt hspan.1 hsize.length
  · exact lt_of_le_of_lt hspan.2 hsize.length

theorem callsOf_pos {m : ChatMessage} {call : ToolCall} (hm : m ∈ messages)
    (hcall : call ∈ m.toolCalls.getD []) (hname : call.function.name = tool) :
    0 < callsOf messages tool := by
  unfold callsOf
  rw [List.countP_pos_iff]
  exact ⟨call, List.mem_flatMap.mpr ⟨m, hm, hcall⟩, decide_eq_true hname⟩

/-- The line of a file operation that was called, with the results counted under their names. -/
theorem renderRunTrace_counts (json : SerdeJson) (hpaired : Paired messages)
    (hsize : FitsMemory messages) (htool : isMaterialFileTool tool = true)
    (hcalled : ∃ m ∈ messages, ∃ call ∈ m.toolCalls.getD [], call.function.name = tool) :
    ∃ entry, HasLine (renderRunTrace json messages) (summaryLine tool entry) ∧
      entry.calls = callsOf messages tool ∧
      ∀ status, entry.results status = (pairedResults messages).countP fun r =>
        decide (countedName r = tool ∧ r.message.isError = status) := by
  obtain ⟨m, hm, call, hcall, hname⟩ := hcalled
  obtain ⟨hcalls, hresults⟩ := @entry_recordMessages _ tool hpaired
  have hpos := callsOf_pos hm hcall hname
  have hmem : (tool, (ActivityLog.recordMessages 0 {} messages).entry tool) ∈
      (ActivityLog.recordMessages 0 {} messages).activity := by
    cases hlookup : (ActivityLog.recordMessages 0 {} messages).activity.lookup tool with
    | none =>
      have hzero : (ActivityLog.recordMessages 0 {} messages).entry tool = {} := by
        rw [ActivityLog.entry, hlookup, Option.getD_none]
      rw [hzero] at hcalls
      rw [← hcalls] at hpos
      exact absurd hpos (by decide)
    | some entry =>
      rw [ActivityLog.entry, hlookup, Option.getD_some]
      obtain ⟨front, back, hsplit, -⟩ := List.lookup_eq_some_iff.mp hlookup
      rw [hsplit]
      exact List.mem_append_right _ (List.mem_cons_self ..)
  exact ⟨_, hasLine_renderRunTrace (hasLine_renderToolActivitySummary htool
    (fits_recordMessages hpaired hsize) hmem), hcalls, hresults⟩

end

/-- The texts of an empty object and of plain strings. -/
def plainJson : SerdeJson where
  fromStr text := if text = "{}".toList then some (.object []) else none
  toText
    | .object [] => "{}".toList
    | .string value => '"' :: value ++ ['"']
    | _ => []

/-- Two turns that use one id, the first result of which carries no name. -/
def reusedIdTrace : List ChatMessage :=
  [ChatMessage.ofAssistantToolCalls
      [ToolCall.ofFunction "call-1".toList "write_file".toList "{}".toList],
    { ChatMessage.ofTool "call-1".toList "written".toList none with isError := some false },
    ChatMessage.ofAssistantToolCalls
      [ToolCall.ofFunction "call-1".toList "read_file".toList "{}".toList],
    { ChatMessage.ofTool "call-1".toList "missing".toList (some "read_file".toList) with
      isError := some true }]

end DeepseekScience.Verify
