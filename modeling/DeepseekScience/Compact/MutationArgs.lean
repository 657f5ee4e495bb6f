import DeepseekScience.Compact.Microcompact
import DeepseekScience.Llm.Pairing

/-! What the free pass keeps of a view, and when a call loses its arguments to the result of another
call with the same id. -/
namespace DeepseekScience.Compact

variable (serde : SerdeJson)

/-- What a message shows of its calls, apart from their arguments. -/
def callHeads (m : ChatMessage) : Option (List (Text × Text × Text)) :=
  m.toolCalls.map fun calls => calls.map fun call => (call.id, call.kind, call.function.name)

/-- Everything but the content of tool results and the arguments of calls is kept. -/
structure SameShape (m m' : ChatMessage) : Prop where
  role : m'.role = m.role
  calls : callHeads m' = callHeads m
  toolCallId : m'.toolCallId = m.toolCallId
  name : m'.name = m.name
  isError : m'.isError = m.isError
  reasoning : m'.reasoningContent = m.reasoningContent

def SmallMessage (m : ChatMessage) : Prop :=
  (m.content.getD []).length ≤ toolresultThreshold ∧
    ∀ call ∈ m.toolCalls.getD [], call.function.arguments.length ≤ toolresultThreshold

/-- A file mutation whose own result is an error keeps its arguments. -/
def KeepsFailedArguments (view : List ChatMessage) : Prop :=
  ∀ r ∈ pairedResults view, r.message.isError = some true →
    isFileMutation r.call.function.name = true →
    ∃ m, (microcompact serde view)[r.turn]? = some m ∧ r.call ∈ m.toolCalls.getD []

/-- Messages behind the view do not change what the pass makes of it. -/
def StableUnder (view behind : List ChatMessage) : Prop :=
  (microcompact serde (view ++ behind)).take view.length = microcompact serde view

/-- No call whose own result is an error shares its id with a successful result of the view, when
its arguments are long enough to be replaced. -/
def FailedIdsUnused (view : List ChatMessage) : Prop :=
  ∀ r ∈ pairedResults view, r.message.isError = some true → r.call.id ∈ successfulCallIds view →
    rewriteCall serde r.call = r.call

/-- No call of the view gets its first successful result behind the view, when its arguments are
long enough to be replaced. -/
def NoSuccessBehind (view behind : List ChatMessage) : Prop :=
  ∀ m ∈ view, m.role = .assistant → ∀ call ∈ m.toolCalls.getD [],
    call.id ∉ successfulCallIds view → call.id ∈ successfulCallIds behind →
      rewriteCall serde call = call

variable {serde}

theorem rewriteCall_head (call : ToolCall) : (rewriteCall serde call).id = call.id ∧
    (rewriteCall serde call).kind = call.kind ∧
    (rewriteCall serde call).function.name = call.function.name := by
  simp only [rewriteCall]
  split_ifs with hsmall
  · exact ⟨rfl, rfl, rfl⟩
  · split
    · split_ifs <;> exact ⟨rfl, rfl, rfl⟩
    · exact ⟨rfl, rfl, rfl⟩

theorem rewriteCall_of_not_mutation {call : ToolCall}
    (h : isFileMutation call.function.name = false) : rewriteCall serde call = call := by
  rw [rewriteCall, if_pos (Or.inl (by rw [h]; rfl))]

theorem rewriteCall_of_small {call : ToolCall}
    (h : call.function.arguments.length ≤ toolresultThreshold) : rewriteCall serde call = call := by
  rw [rewriteCall, if_pos (Or.inr h)]

variable (serde) in
theorem compactCall_head (successfulCalls : List Text) (call : ToolCall) :
    (compactCall serde successfulCalls call).id = call.id ∧
      (compactCall serde successfulCalls call).kind = call.kind ∧
      (compactCall serde successfulCalls call).function.name = call.function.name := by
  rw [compactCall]
  split_ifs
  · exact rewriteCall_head call
  · exact ⟨rfl, rfl, rfl⟩

theorem compactOne_of_assistant {m : ChatMessage} (h : m.role = .assistant) (ids : List Text) :
    compactOne serde ids m = compactSuccessfulFileMutations serde ids m := by
  simp only [compactOne, h]

variable (serde) in
theorem compactOne_of_not_assistant {m : ChatMessage} (h : m.role ≠ .assistant) (ids : List Text) :
    ∃ content, compactOne serde ids m = { m with content := content } := by
  rw [compactOne]
  split
  · exact absurd ‹_› h
  · split
    · exact ⟨m.content, rfl⟩
    · split_ifs
      · exact ⟨m.content, rfl⟩
      · split <;> exact ⟨_, rfl⟩
  · exact ⟨m.content, rfl⟩

variable (serde) in
theorem sameShape_compactOne (ids : List Text) (m : ChatMessage) :
    SameShape m (compactOne serde ids m) := by
  by_cases h : m.role = .assistant
  · rw [compactOne_of_assistant h]
    constructor
    · rfl
    · simp only [callHeads, compactSuccessfulFileMutations, Option.map_map]
      congr 1
      funext calls
      simp only [Function.comp_apply, List.map_map]
      apply List.map_congr_left
      intro call _
      obtain ⟨hid, hkind, hname⟩ := compactCall_head serde ids call
      simp only [Function.comp_apply, hid, hkind, hname]
    all_goals rfl
  · obtain ⟨content, hcontent⟩ := compactOne_of_not_assistant serde h ids
    rw [hcontent]
    constructor <;> rfl

theorem compactOne_of_small {m : ChatMessage} (h : SmallMessage m) (ids : List Text) :
    compactOne serde ids m = m := by
  obtain ⟨hcontent, hcalls⟩ := h
  rw [compactOne]
  split
  · have hsame : (m.toolCalls.map fun calls => calls.map (compactCall serde ids)) = m.toolCalls := by
      cases hm : m.toolCalls with
      | none => rfl
      | some calls =>
        rw [hm] at hcalls
        rw [Option.map_some]
        congr 1
        have hid : calls.map (compactCall serde ids) = calls.map id := by
          apply List.map_congr_left
          intro call hcall
          rw [compactCall, rewriteCall_of_small (hcalls call hcall), ite_self, id]
        rw [hid, List.map_id]
    rw [compactSuccessfulFileMutations, hsame]
  · split
    · rfl
    · rename_i content hsome
      rw [hsome] at hcontent
      exact if_pos hcontent
  · rfl

theorem compactOne_of_other_role {m : ChatMessage} (h : m.role ≠ .assistant) (h' : m.role ≠ .tool)
    (ids : List Text) : compactOne serde ids m = m := by
  rw [compactOne]
  split
  · exact absurd ‹_› h
  · exact absurd ‹_› h'
  · rfl

section
variable {view behind : List ChatMessage}

variable (serde) in
theorem calls_compactOne (ids : List Text) {m : ChatMessage}
    (h : m.role ≠ .assistant → m.toolCalls.getD [] = []) :
    (compactOne serde ids m).toolCalls.getD [] =
      (m.toolCalls.getD []).map (compactCall serde ids) := by
  by_cases hrole : m.role = .assistant
  · rw [compactOne_of_assistant hrole, compactSuccessfulFileMutations]
    cases m.toolCalls <;> rfl
  · obtain ⟨content, hcontent⟩ := compactOne_of_not_assistant serde hrole ids
    rw [hcontent]
    simp [h hrole]

theorem compactCall_id (ids : List Text) :
    ToolCall.id ∘ compactCall serde ids = ToolCall.id := by
  funext call
  exact (compactCall_head serde ids call).1

/-- The pass keeps the pairing of results and calls. -/
theorem PairedFrom.compact (ids : List Text) {index : ℕ} {turn turn' : Turn}
    (hcalls : turn'.calls = turn.calls.map (compactCall serde ids)) (hindex : turn'.index = turn.index)
    (h : PairedFrom index turn view) :
    PairedFrom index turn' (view.map (compactOne serde ids)) := by
  induction view generalizing index turn turn' with
  | nil => trivial
  | cons m rest ih =>
    obtain ⟨hanswered, hcallers, hnodup, hrest⟩ := h
    have hshape := sameShape_compactOne serde ids m
    have hown := calls_compactOne serde ids hcallers
    refine ⟨fun hrole => ?_, fun hrole => ?_, ?_, ih ?_ ?_ hrest⟩
    · have hold := hanswered (hshape.role ▸ hrole)
      rw [Turn.answered, List.find?_isSome] at hold ⊢
      obtain ⟨call, hcall, hid⟩ := hold
      refine ⟨compactCall serde ids call, hcalls ▸ List.mem_map_of_mem hcall, ?_⟩
      rwa [hshape.toolCallId, (compactCall_head serde ids call).1]
    · rw [hown, hcallers (hshape.role ▸ hrole), List.map_nil]
    · rwa [hown, List.map_map, compactCall_id]
    · simp only [Turn.next, hown, List.map_eq_nil_iff]
      split_ifs
      · exact hcalls
      · rfl
    · simp only [Turn.next, hown, List.map_eq_nil_iff]
      split_ifs
      · exact hindex
      · rfl

theorem Paired.microcompact (h : Paired view) : Paired (microcompact serde view) :=
  PairedFrom.compact (successfulCallIds view) rfl rfl h

/-- The pass keeps a view valid in the strict sense too. -/
theorem ToolProtocolValid.microcompact (h : ToolProtocolValid view) :
    ToolProtocolValid (microcompact serde view) := by
  have hstep : ∀ pending m, protocolStep pending (compactOne serde (successfulCallIds view) m) =
      protocolStep pending m := by
    intro pending m
    have hshape := sameShape_compactOne serde (successfulCallIds view) m
    have hopened : openedCalls (compactOne serde (successfulCallIds view) m) = openedCalls m := by
      rw [openedCalls, openedCalls, hshape.role]
      split_ifs with hrole
      · rw [calls_compactOne serde _ fun hne => absurd hrole hne, List.map_map, compactCall_id]
      · rfl
    cases pending <;> simp only [protocolStep, hshape.role, hshape.toolCallId, hopened]
  rw [ToolProtocolValid, Compact.microcompact, List.foldlM_map]
  simp only [hstep]
  exact h

/-- An assistant message that declares a call, next to calls with other ids. -/
def Declares (messages : List ChatMessage) (index : ℕ) (call : ToolCall) : Prop :=
  ∃ m, messages[index]? = some m ∧ m.role = .assistant ∧ call ∈ m.toolCalls.getD [] ∧
    ((m.toolCalls.getD []).map ToolCall.id).Nodup

theorem declares_of_mem_pairedResultsFrom (front : List ChatMessage) {suffix : List ChatMessage}
    {turn : Turn}
    (h : PairedFrom front.length turn suffix)
    (hturn : ∀ call ∈ turn.calls, Declares (front ++ suffix) turn.index call) {r : PairedResult}
    (hr : r ∈ pairedResultsFrom front.length turn suffix) :
    Declares (front ++ suffix) r.turn r.call := by
  induction suffix generalizing front turn with
  | nil => exact absurd hr List.not_mem_nil
  | cons m rest ih =>
    obtain ⟨-, hcallers, hnodup, hrest⟩ := h
    rw [pairedResultsFrom] at hr
    rcases List.mem_append.mp hr with hr | hr
    · split_ifs at hr
      · obtain ⟨call, hcall, rfl⟩ := Option.map_eq_some_iff.mp (Option.mem_toList.mp hr)
        exact hturn call (List.mem_of_find?_eq_some hcall)
      · exact absurd hr List.not_mem_nil
    · have hsplit : front ++ m :: rest = (front ++ [m]) ++ rest := by simp
      have hlen : front.length + 1 = (front ++ [m]).length := by simp
      rw [hlen] at hrest hr
      rw [hsplit] at hturn ⊢
      apply ih (front ++ [m]) hrest _ hr
      intro call hcall
      simp only [Turn.next] at hcall ⊢
      split_ifs at hcall ⊢ with hnil
      · exact hturn call hcall
      · refine ⟨m, by simp, ?_, hcall, hnodup⟩
        by_contra hrole
        exact hnil (hcallers hrole)

/-- A result is paired with a call of the assistant message at its turn. -/
theorem declares_of_mem_pairedResults (h : Paired view) {r : PairedResult}
    (hr : r ∈ pairedResults view) : Declares view r.turn r.call :=
  declares_of_mem_pairedResultsFrom [] h (fun _ hcall => absurd hcall List.not_mem_nil) hr

/-- A call is still there behind the pass exactly when the pass does not change it. -/
theorem mem_compactedCalls {ids : List Text} {calls : List ToolCall} {call : ToolCall}
    (hcall : call ∈ calls) (hnodup : (calls.map ToolCall.id).Nodup) :
    call ∈ calls.map (compactCall serde ids) ↔ compactCall serde ids call = call := by
  constructor
  · intro hmem
    obtain ⟨other, hother, hsame⟩ := List.mem_map.mp hmem
    have hid : other.id = call.id := by rw [← (compactCall_head serde ids other).1, hsame]
    rwa [List.inj_on_of_nodup_map hnodup hother hcall hid] at hsame
  · exact fun hsame => hsame ▸ List.mem_map_of_mem hcall

theorem compactCall_eq_self {ids : List Text} {call : ToolCall} :
    compactCall serde ids call = call ↔ (call.id ∈ ids → rewriteCall serde call = call) := by
  rw [compactCall]
  split_ifs with hid <;> simp [hid]

theorem keepsFailedArguments_iff (h : Paired view) :
    KeepsFailedArguments serde view ↔ FailedIdsUnused serde view := by
  constructor
  · intro hkeeps r hr herror hid
    by_cases hname : isFileMutation r.call.function.name = true
    · obtain ⟨m, hm, hmem⟩ := hkeeps r hr herror hname
      obtain ⟨m₀, hm₀, hrole, hcall, hnodup⟩ := declares_of_mem_pairedResults h hr
      rw [microcompact, List.getElem?_map, hm₀, Option.map_some] at hm
      obtain rfl := Option.some.inj hm
      rw [calls_compactOne serde _ fun hne => absurd hrole hne] at hmem
      exact compactCall_eq_self.mp ((mem_compactedCalls hcall hnodup).mp hmem) hid
    · exact rewriteCall_of_not_mutation (by simpa using hname)
  · intro hunused r hr herror _
    obtain ⟨m₀, hm₀, hrole, hcall, hnodup⟩ := declares_of_mem_pairedResults h hr
    refine ⟨compactOne serde (successfulCallIds view) m₀, ?_, ?_⟩
    · rw [microcompact, List.getElem?_map, hm₀, Option.map_some]
    · rw [calls_compactOne serde _ fun hne => absurd hrole hne]
      exact (mem_compactedCalls hcall hnodup).mpr (compactCall_eq_self.mpr (hunused r hr herror))

theorem compactOne_ids_of_not_assistant {m : ChatMessage} (h : m.role ≠ .assistant)
    (ids ids' : List Text) : compactOne serde ids m = compactOne serde ids' m := by
  simp only [compactOne]
  split
  · exact absurd ‹_› h
  · rfl
  · rfl

theorem compactCall_append {ids later : List Text} {call : ToolCall} :
    compactCall serde (ids ++ later) call = compactCall serde ids call ↔
      (call.id ∉ ids → call.id ∈ later → rewriteCall serde call = call) := by
  simp only [compactCall, List.mem_append]
  by_cases hid : call.id ∈ ids
  · simp [hid]
  · by_cases hlater : call.id ∈ later <;> simp [hid, hlater]

theorem stableUnder_iff : StableUnder serde view behind ↔ NoSuccessBehind serde view behind := by
  have hids : successfulCallIds (view ++ behind) = successfulCallIds view ++ successfulCallIds behind := by
    simp only [successfulCallIds, List.filter_append, List.filterMap_append]
  rw [StableUnder, microcompact, hids, List.map_append,
    List.take_left' (List.length_map _), microcompact, List.map_inj_left]
  constructor
  · intro hsame m hm hrole call hcall
    have hm := congrArg ChatMessage.toolCalls (hsame m hm)
    rw [compactOne_of_assistant hrole, compactOne_of_assistant hrole] at hm
    cases hcalls : m.toolCalls with
    | none =>
      rw [hcalls] at hcall
      exact absurd hcall List.not_mem_nil
    | some calls =>
      rw [hcalls] at hcall
      simp only [compactSuccessfulFileMutations, hcalls, Option.map_some, Option.some.injEq,
        List.map_inj_left] at hm
      exact compactCall_append.mp (hm call hcall)
  · intro hnone m hm
    by_cases hrole : m.role = .assistant
    · rw [compactOne_of_assistant hrole, compactOne_of_assistant hrole,
        compactSuccessfulFileMutations, compactSuccessfulFileMutations]
      cases hcalls : m.toolCalls with
      | none => rfl
      | some calls =>
        have hmap : calls.map (compactCall serde (successfulCallIds view ++ successfulCallIds behind)) =
            calls.map (compactCall serde (successfulCallIds view)) := by
          apply List.map_congr_left
          intro call hcall
          exact compactCall_append.mpr (hnone m hm hrole call (by rw [hcalls]; exact hcall))
        rw [Option.map_some, Option.map_some, hmap]
    · exact compactOne_ids_of_not_assistant hrole _ _

/-- The free pass keeps the shape of every view. It keeps the arguments of failed mutations, and
what it made of earlier messages, exactly where no id of a call with long arguments is used for a
successful result of another call. -/
theorem microcompact_exact_iff (h : Paired view) :
    (∀ (i : ℕ) (m : ChatMessage), view[i]? = some m →
      ∃ m', (microcompact serde view)[i]? = some m' ∧ SameShape m m' ∧
        (m.role ≠ .assistant ∧ m.role ≠ .tool ∨ SmallMessage m → m' = m)) ∧
    (microcompact serde view).length = view.length ∧ Paired (microcompact serde view) ∧
    (ToolProtocolValid view → ToolProtocolValid (microcompact serde view)) ∧
    ((KeepsFailedArguments serde view ∧ StableUnder serde view behind) ↔
      FailedIdsUnused serde view ∧ NoSuccessBehind serde view behind) := by
  constructor
  · intro i m hm
    refine ⟨compactOne serde (successfulCallIds view) m, ?_, sameShape_compactOne serde _ m, ?_⟩
    · rw [microcompact, List.getElem?_map, hm, Option.map_some]
    · rintro (⟨hassistant, htool⟩ | hsmall)
      · exact compactOne_of_other_role hassistant htool _
      · exact compactOne_of_small hsmall _
  constructor
  · exact List.length_map _
  constructor
  · exact Paired.microcompact h
  constructor
  · exact ToolProtocolValid.microcompact
  · rw [keepsFailedArguments_iff h, stableUnder_iff]

end

def longFront : Text := "\x7b\"content\":\"".toList

def longBack : Text := "\",\"path\":\"a.py\"\x7d".toList

/-- The arguments of a mutation that writes a long file. -/
def longArguments (body : Text) : Text := longFront ++ body ++ longBack

/-- JSON text of objects whose members are plain strings; it reads the long arguments only. -/
def plainSerde (body : Text) : SerdeJson where
  fromStr text :=
    if text = longArguments body then
      some (.object [("content".toList, .string body), ("path".toList, .string "a.py".toList)])
    else none
  toText value :=
    match value with
    | .object members => '\x7b' :: joinText [','] (members.map fun (key, value) =>
        '"' :: key ++ '"' :: ':' :: '"' :: (value.asStr.getD []) ++ ['"']) ++ ['\x7d']
    | _ => []

def longWrite (body : Text) : ToolCall :=
  ToolCall.ofFunction ['1'] "write_file".toList (longArguments body)

theorem rewriteCall_longWrite {body : Text} (h : body.length = 8001) :
    rewriteCall (plainSerde body) (longWrite body) ≠ longWrite body := by
  have hfront : longFront.length = 12 := by decide
  have hback : longBack.length = 16 := by decide
  have hlong : (longArguments body).length = 8029 := by
    rw [longArguments, List.length_append, List.length_append, hfront, hback, h]
  have hread : (plainSerde body).fromStr (longArguments body) =
      some (.object [("content".toList, .string body), ("path".toList, .string "a.py".toList)]) :=
    if_pos rfl
  have hcompacted : isCompacted ("content".toList, .string body) = true := by
    rw [isCompacted]
    simp only [Json.asStr, Option.any_some, h]
    decide
  have hfield : compactField "write_file".toList "a.py".toList ("content".toList, .string body) =
      ("content".toList,
        .string (omittedNotice "content".toList "write_file".toList "a.py".toList 8001)) := by
    rw [compactField]
    simp only [h]
    rw [if_pos (by decide)]
  have hsmall : ¬((!isFileMutation (longWrite body).function.name) = true ∨
      (longWrite body).function.arguments.length ≤ toolresultThreshold) := by
    rintro (hname | hlen)
    · rw [show (longWrite body).function.name = "write_file".toList from rfl] at hname
      exact absurd hname (by decide)
    · rw [show (longWrite body).function.arguments = longArguments body from rfl, hlong] at hlen
      exact absurd hlen (by decide)
  have hpath : mutationPath [("content".toList, .string body), ("path".toList, .string "a.py".toList)] =
      "a.py".toList := rfl
  intro hsame
  rw [rewriteCall, if_neg hsmall, show (longWrite body).function.arguments = longArguments body from rfl,
    hread] at hsame
  simp only [List.any_cons, hcompacted, Bool.true_or, if_true, List.map_cons, hpath] at hsame
  have hargs : ((plainSerde body).toText (.object [compactField "write_file".toList "a.py".toList
      ("content".toList, .string body), compactField "write_file".toList "a.py".toList
      ("path".toList, .string "a.py".toList)])).length = 8029 :=
    (congrArg (fun call => call.function.arguments.length) hsame).trans hlong
  rw [hfield] at hargs
  have hshort : ((plainSerde []).toText (.object [("content".toList,
      .string (omittedNotice "content".toList "write_file".toList "a.py".toList 8001)),
      ("path".toList, .string "a.py".toList)])).length = 142 := by
    decide +kernel
  rw [show (plainSerde body).toText = (plainSerde []).toText from rfl,
    show compactField "write_file".toList "a.py".toList ("path".toList, .string "a.py".toList) =
      ("path".toList, .string "a.py".toList) from rfl, hshort] at hargs
  cases hargs

/-- A result of the call with id `1`. -/
def oneResult (isError : Bool) : ChatMessage :=
  { ChatMessage.ofTool ['1'] [] none with isError := some isError }

/-- A failed write of a long file. -/
def failedWrite (body : Text) : List ChatMessage :=
  [ChatMessage.ofAssistantToolCalls [longWrite body], oneResult true]

/-- A later turn with the same id. -/
def laterRead : List ChatMessage :=
  [ChatMessage.ofAssistantToolCalls [ToolCall.ofFunction ['1'] "read_file".toList []],
    oneResult false]

theorem paired_failedWrite (body : Text) : Paired (failedWrite body) := by
  simp [Paired, PairedFrom, failedWrite, Turn.answered, Turn.next, longWrite, oneResult,
    ToolCall.ofFunction, ChatMessage.ofAssistantToolCalls, ChatMessage.ofTool]

theorem microcompact_exact_failedWrite :
    KeepsFailedArguments (plainSerde (List.replicate 8001 'x'))
        (failedWrite (List.replicate 8001 'x')) ∧
      StableUnder (plainSerde (List.replicate 8001 'x')) (failedWrite (List.replicate 8001 'x')) [] := by
  apply (microcompact_exact_iff (paired_failedWrite _)).2.2.2.2.mpr
  constructor
  · intro r _ _ hid
    exact absurd hid List.not_mem_nil
  · intro m _ _ call _ _ hid
    exact absurd hid List.not_mem_nil

/-- The success of a later call with the same id takes the arguments of the failed write. -/
theorem reused_id_hides_failed_arguments :
    ¬∀ (serde : SerdeJson) (view behind : List ChatMessage), Paired view →
      KeepsFailedArguments serde view ∧ StableUnder serde view behind := by
  intro h
  have hlong : (List.replicate 8001 'x').length = 8001 := List.length_replicate
  generalize List.replicate 8001 'x' = body at hlong
  have hpaired : Paired (failedWrite body ++ laterRead) := by
    simp [Paired, PairedFrom, failedWrite, laterRead, Turn.answered, Turn.next, longWrite,
      oneResult, ToolCall.ofFunction, ChatMessage.ofAssistantToolCalls, ChatMessage.ofTool]
  have hunused := (keepsFailedArguments_iff hpaired).mp
    (h (plainSerde body) (failedWrite body ++ laterRead) [] hpaired).1
  exact rewriteCall_longWrite hlong
    (hunused ⟨oneResult true, longWrite body, 0⟩ List.mem_cons_self rfl List.mem_cons_self)

end DeepseekScience.Compact
