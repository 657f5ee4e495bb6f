import DeepseekScience.Frontend.SessionMessages

/-! The restored transcript of rows that follow the tool protocol: every call stands in front of
its own result exactly when hidden rows do not shift the queue of an id that is used again. -/
namespace DeepseekScience.Frontend

section
variable (lib : BrowserLib)

/-! What a row shows. -/

/-- A block, or a call whose result is still to be found. -/
inductive Piece where
  | block (block : ContentBlock)
  | call (id name : Text) (input : Json)

def Piece.id? : Piece → Option Text
  | .call id _ _ => some id
  | .block _ => none

/-- A text piece when there is a text. -/
def textPiece (block : Text → ContentBlock) (text : Option Text) : List Piece :=
  match text with
  | some text => if text.isEmpty then [] else [.block (block (lib.sanitize text))]
  | none => []

def candidatePiece (candidate : Json) : Option Piece :=
  match sanitizeBlock lib (0, 0) candidate with
  | none => none
  | some (.toolResult _) => none
  | some (.text text) => some (.block (.text (lib.sanitize text)))
  | some (.toolUse id name input) => some (.call id name input)
  | some (.thinking thinking) => some (.block (.thinking thinking))

def callPieces (value : Option Json) : List Piece :=
  match value with
  | some (.array candidates) =>
    (candidates.filterMap objectCall).map fun call =>
      .call call.1 call.2.1 (parseToolInput lib call.2.2)
  | _ => []

/-- What an assistant row shows, its calls without results. -/
def rowPieces (row : PersistedSessionMessage) : List Piece :=
  match row.content with
  | .string text => textPiece lib .text (some text)
  | .array candidates => candidates.filterMap (candidatePiece lib)
  | content =>
    textPiece lib .thinking (textOf (content.get? "reasoning_content".toList)) ++
      textPiece lib .text (textOf (content.get? "content".toList)) ++
      callPieces lib (content.get? "tool_calls".toList)

def rowUsage (row : PersistedSessionMessage) : Option Usage :=
  match row.content with
  | .string _ => none
  | .array _ => none
  | content => sanitizeUsage lib (content.get? "usage".toList)

def rowCalls (row : PersistedSessionMessage) : List Text := (rowPieces lib row).filterMap Piece.id?

/-- The pieces, each call in front of the answer that it is given. -/
def shownBlocks : List Piece → List (Option PersistedToolResult) → List ContentBlock
  | [], _ => []
  | .block block :: rest, answers => block :: shownBlocks rest answers
  | .call id name input :: rest, answers =>
    .toolUse id name input ::
      ((answers.head?.join.map fun r => ContentBlock.toolResult r.block).toList ++
        shownBlocks rest answers.tail)

/-- The last of the rows that a message is made of. -/
def shownSeq (seq : Option ℤ) (answers : List (Option PersistedToolResult)) : Option ℤ :=
  answers.foldl (fun seq answer => laterSeq seq (answer.bind PersistedToolResult.seq)) seq

/-- The message of an assistant row with the answers to its calls. -/
def messageWith (row : PersistedSessionMessage) (answers : List (Option PersistedToolResult)) :
    Option Message :=
  assistantMessage row (shownBlocks (rowPieces lib row) answers) (rowUsage lib row)
    (shownSeq row.seq answers)

/-! The calls and results of rows, hidden ones among them. -/

inductive Event where
  | call (id : Text) (runId : Option Text) (shown : Bool)
  | result (result : PersistedToolResult) (runId : Option Text) (shown : Bool)

def resultEvents (place : ℕ) (row : PersistedSessionMessage) : List Event :=
  match normalizeVisibleRole lib row.role with
  | none => []
  | some .user => []
  | some role =>
    (rowToolResults lib place role row).map fun block =>
      .result ⟨block, row.seq⟩ row.runId (visibleRole lib row).isSome

def callEvents (row : PersistedSessionMessage) : List Event :=
  if normalizeVisibleRole lib row.role = some .assistant then
    (rowCalls lib row).map fun id => .call id row.runId (visibleRole lib row).isSome
  else []

def eventsFrom (place : ℕ) : List PersistedSessionMessage → List Event
  | [] => []
  | row :: rest => callEvents lib row ++ resultEvents lib place row ++ eventsFrom (place + 1) rest

/-- No id is called again while it waits for its result, calls of two runs do not wait at the same
time, and every result answers a call that waits. -/
def AnswersInTurn : List Text → Option Text → List Event → Prop
  | _, _, [] => True
  | waiting, run, .call id runId _ :: rest =>
    (waiting ≠ [] → runId = run) ∧ id ∉ waiting ∧ AnswersInTurn (id :: waiting) runId rest
  | waiting, run, .result result runId _ :: rest =>
    runId = run ∧ result.block.toolUseId ∈ waiting ∧
      AnswersInTurn (waiting.erase result.block.toolUseId) run rest

instance decidableAnswersInTurn : ∀ waiting run events, Decidable (AnswersInTurn waiting run events)
  | _, _, [] => .isTrue trivial
  | waiting, _, .call id runId _ :: rest =>
    have := decidableAnswersInTurn (id :: waiting) runId rest
    inferInstanceAs (Decidable (_ ∧ _ ∧ _))
  | waiting, run, .result result _ _ :: rest =>
    have := decidableAnswersInTurn (waiting.erase result.block.toolUseId) run rest
    inferInstanceAs (Decidable (_ ∧ _ ∧ _))

/-- The next result of an id, when it may be shown. -/
def ownResult (id : Text) : List Event → Option PersistedToolResult
  | [] => none
  | .call _ _ _ :: rest => ownResult id rest
  | .result result _ shown :: rest =>
    if result.block.toolUseId = id then (if shown then some result else none) else ownResult id rest

/-- The calls, each with its own result. -/
def exchanges : List Event → List (Fifo.Exchange Text PersistedToolResult)
  | [] => []
  | .call id runId shown :: rest => ⟨toolKey runId id, shown, ownResult id rest⟩ :: exchanges rest
  | .result _ _ _ :: rest => exchanges rest

/-- The calls of a row that may be shown. -/
def shownCalls (row : PersistedSessionMessage) : List Text :=
  if visibleRole lib row = some .assistant then rowCalls lib row else []

/-- The message of a row with the answers to its calls. -/
def rowMessage (row : PersistedSessionMessage) (answers : List (Option PersistedToolResult)) :
    Option Message :=
  match visibleRole lib row with
  | some .user => restoreUserMessage lib row
  | some .assistant => messageWith lib row answers
  | _ => none

def messagesWith : List PersistedSessionMessage → List (List (Option PersistedToolResult)) →
    List Message
  | row :: rest, answers :: others =>
    (rowMessage lib row answers).toList ++ messagesWith rest others
  | _, _ => []

/-- The own results of the calls of every row. -/
def ownAnswers (place : ℕ) : List PersistedSessionMessage → List (List (Option PersistedToolResult))
  | [] => []
  | row :: rest =>
    ((shownCalls lib row).map fun id =>
      ownResult id (resultEvents lib place row ++ eventsFrom lib (place + 1) rest)) ::
        ownAnswers (place + 1) rest

/-- The transcript in which every row that may be shown is shown once, in order, with every call
in front of its own result. -/
def transcript (rows : List PersistedSessionMessage) : List Message :=
  messagesWith lib rows (ownAnswers lib 0 rows)

end

section
variable {lib : BrowserLib}

/-! The queues serve the calls of a row. -/

/-- A piece of an assistant row is appended. -/
def Restoring.piece (s : Restoring) (runId : Option Text) : Piece → Restoring
  | .block block => s.push block
  | .call id name input => s.call runId id name input

def pieceKeys (runId : Option Text) (pieces : List Piece) : List Text :=
  (pieces.filterMap Piece.id?).map (toolKey runId)

theorem laterSeq_assoc (a b c : Option ℤ) : laterSeq (laterSeq a b) c = laterSeq a (laterSeq b c) := by
  cases c with
  | none => rfl
  | some c =>
    cases b with
    | none => simp [laterSeq]
    | some b =>
      cases a with
      | none => simp [laterSeq]
      | some a => simp [laterSeq, max_assoc]

theorem shownSeq_eq (seq : Option ℤ) (answers : List (Option PersistedToolResult)) :
    shownSeq seq answers = laterSeq seq (shownSeq none answers) := by
  unfold shownSeq
  have hfold : ∀ a b, answers.foldl (fun seq answer =>
      laterSeq seq (answer.bind PersistedToolResult.seq)) (laterSeq a b) =
      laterSeq a (answers.foldl (fun seq answer =>
        laterSeq seq (answer.bind PersistedToolResult.seq)) b) := by
    induction answers with
    | nil => exact fun _ _ => rfl
    | cons answer rest ih =>
      intro a b
      rw [List.foldl_cons, List.foldl_cons, laterSeq_assoc, ih]
  exact hfold seq none

theorem foldl_piece (runId : Option Text) (pieces : List Piece) (s : Restoring) :
    pieces.foldl (fun s p => s.piece runId p) s =
      ⟨s.blocks ++ shownBlocks pieces (Fifo.serve s.toolResults (pieceKeys runId pieces)).1,
        shownSeq s.seq (Fifo.serve s.toolResults (pieceKeys runId pieces)).1,
        (Fifo.serve s.toolResults (pieceKeys runId pieces)).2⟩ := by
  induction pieces generalizing s with
  | nil => simp [pieceKeys, Fifo.serve, shownBlocks, shownSeq]
  | cons p rest ih =>
    rw [List.foldl_cons, ih]
    cases p with
    | block block =>
      have hkeys : pieceKeys runId (.block block :: rest) = pieceKeys runId rest := rfl
      rw [hkeys]
      simp [Restoring.piece, Restoring.push, shownBlocks]
    | call id name input =>
      have hkeys : pieceKeys runId (.call id name input :: rest) =
          toolKey runId id :: pieceKeys runId rest := rfl
      rw [hkeys, Fifo.serve]
      have hnone : (Fifo.take s.toolResults (toolKey runId id)).1 = none →
          (Fifo.take s.toolResults (toolKey runId id)).2 = s.toolResults := by
        unfold Fifo.take
        cases s.toolResults (toolKey runId id) with
        | nil => exact fun _ => rfl
        | cons r rest => exact fun h => absurd h (by simp)
      dsimp only [Restoring.piece, Restoring.call, takeToolResult, Restoring.push]
      cases htake : (Fifo.take s.toolResults (toolKey runId id)).1 with
      | none =>
        rw [hnone htake]
        simp [shownBlocks, shownSeq, laterSeq]
      | some r => simp [shownBlocks, shownSeq]

theorem foldl_candidate (runId : Option Text) (candidates : List Json) (s : Restoring) :
    candidates.foldl (fun s candidate => s.candidate lib runId candidate) s =
      (candidates.filterMap (candidatePiece lib)).foldl (fun s p => s.piece runId p) s := by
  induction candidates generalizing s with
  | nil => rfl
  | cons candidate rest ih =>
    rw [List.foldl_cons, ih, List.filterMap_cons]
    unfold Restoring.candidate candidatePiece
    cases sanitizeBlock lib (0, 0) candidate with
    | none => rfl
    | some block => cases block <;> rfl

theorem pushText_eq (s : Restoring) (block : Text → ContentBlock) (text : Option Text)
    (runId : Option Text) : s.pushText lib block text =
      (textPiece lib block text).foldl (fun s p => s.piece runId p) s := by
  unfold Restoring.pushText textPiece
  cases text with
  | none => rfl
  | some text =>
    cases hempty : text.isEmpty with
    | true => simp [hempty]
    | false => simp [hempty, Restoring.piece]

theorem appendObjectToolCalls_eq (s : Restoring) (value : Option Json) (runId : Option Text) :
    appendObjectToolCalls lib s value runId =
      (callPieces lib value).foldl (fun s p => s.piece runId p) s := by
  cases value with
  | none => rfl
  | some v =>
    cases v with
    | array candidates =>
      show (candidates.filterMap objectCall).foldl _ s = ((candidates.filterMap objectCall).map
        fun call => Piece.call call.1 call.2.1 (parseToolInput lib call.2.2)).foldl _ s
      rw [List.foldl_map]
      rfl
    | _ => rfl

theorem pieceKeys_textPiece (runId : Option Text) (block : Text → ContentBlock)
    (text : Option Text) : pieceKeys runId (textPiece lib block text) = [] := by
  unfold textPiece
  cases text with
  | none => rfl
  | some text =>
    dsimp only
    split_ifs with hempty
    · rfl
    · rfl

/-- The number of a row and those of its results join in any order. -/
theorem foldl_piece_seq (runId : Option Text) (pieces : List Piece) (s : Restoring) :
    pieces.foldl (fun t p => Restoring.piece t runId p) s =
      { pieces.foldl (fun t p => Restoring.piece t runId p) { s with seq := none } with
        seq := laterSeq s.seq
          (pieces.foldl (fun t p => Restoring.piece t runId p) { s with seq := none }).seq } := by
  rw [foldl_piece, foldl_piece, ← shownSeq_eq]

/-- An assistant row is its pieces, appended one after another. -/
theorem restoreAssistantMessage_pieces (row : PersistedSessionMessage)
    (toolResults : ToolResults) :
    let s := (rowPieces lib row).foldl (fun t p => Restoring.piece t row.runId p)
      ⟨[], row.seq, toolResults⟩
    restoreAssistantMessage lib row toolResults =
      (assistantMessage row s.blocks (rowUsage lib row) s.seq, s.toolResults) := by
  obtain ⟨seq, runId, role, content, notice⟩ := row
  have hobject : ∀ content : Json,
      Restoring.pushText lib (Restoring.pushText lib ⟨[], seq, toolResults⟩ .thinking
          (textOf (content.get? "reasoning_content".toList))) .text
          (textOf (content.get? "content".toList)) =
        (textPiece lib .text (textOf (content.get? "content".toList))).foldl
          (fun t p => Restoring.piece t runId p)
          ((textPiece lib .thinking (textOf (content.get? "reasoning_content".toList))).foldl
            (fun t p => Restoring.piece t runId p) ⟨[], seq, toolResults⟩) := fun content => by
    rw [pushText_eq _ _ _ runId, pushText_eq _ _ _ runId]
  unfold restoreAssistantMessage rowPieces rowUsage
  cases content with
  | string text =>
    dsimp only
    rw [pushText_eq _ _ _ runId]
  | array candidates =>
    dsimp only
    rw [foldl_candidate]
  | _ =>
    dsimp only
    rw [hobject, appendObjectToolCalls_eq, List.foldl_append, List.foldl_append]
    generalize List.foldl (fun t p => Restoring.piece t runId p) _ (textPiece lib .text _) = s
    rw [foldl_piece_seq runId _ s]

/-- An assistant row is restored from what it shows and the first answers of its queues. -/
theorem restoreAssistantMessage_eq (row : PersistedSessionMessage) (toolResults : ToolResults) :
    restoreAssistantMessage lib row toolResults =
      (messageWith lib row
        (Fifo.serve toolResults ((rowCalls lib row).map (toolKey row.runId))).1,
        (Fifo.serve toolResults ((rowCalls lib row).map (toolKey row.runId))).2) := by
  rw [restoreAssistantMessage_pieces, foldl_piece, List.nil_append]
  rfl

/-! From rows to queues. -/

/-- What the queues give to the calls of every row. -/
def servedAnswers (lib : BrowserLib) (toolResults : ToolResults) :
    List PersistedSessionMessage → List (List (Option PersistedToolResult))
  | [] => []
  | row :: rest =>
    let served := Fifo.serve toolResults ((shownCalls lib row).map (toolKey row.runId))
    served.1 :: servedAnswers lib served.2 rest

theorem restoreRows_eq (toolResults : ToolResults) (rows : List PersistedSessionMessage) :
    restoreRows lib toolResults rows =
      messagesWith lib rows (servedAnswers lib toolResults rows) := by
  induction rows generalizing toolResults with
  | nil => rfl
  | cons row rest ih =>
    rw [restoreRows, servedAnswers, messagesWith]
    unfold rowMessage shownCalls
    cases hrole : visibleRole lib row with
    | none => exact ih toolResults
    | some role =>
      cases role with
      | user =>
        dsimp only
        rw [ih]
        rfl
      | tool => exact ih toolResults
      | assistant =>
        dsimp only
        rw [restoreAssistantMessage_eq, ih, if_pos rfl]

/-- The keys that are asked for, in order. -/
def askedKeys (lib : BrowserLib) (rows : List PersistedSessionMessage) : List Text :=
  rows.flatMap fun row => (shownCalls lib row).map (toolKey row.runId)

theorem servedAnswers_flatten (toolResults : ToolResults) (rows : List PersistedSessionMessage) :
    (servedAnswers lib toolResults rows).flatten =
      (Fifo.serve toolResults (askedKeys lib rows)).1 := by
  induction rows generalizing toolResults with
  | nil => rfl
  | cons row rest ih =>
    have hkeys : askedKeys lib (row :: rest) =
        (shownCalls lib row).map (toolKey row.runId) ++ askedKeys lib rest := List.flatMap_cons ..
    rw [servedAnswers, List.flatten_cons, ih, hkeys, Fifo.serve_append]

/-- A list of answers for every row, one for each of its calls. -/
def FitsRows (lib : BrowserLib) (rows : List PersistedSessionMessage)
    (answers : List (List (Option PersistedToolResult))) : Prop :=
  answers.map List.length = rows.map fun row => (shownCalls lib row).length

theorem fitsRows_served (toolResults : ToolResults) (rows : List PersistedSessionMessage) :
    FitsRows lib rows (servedAnswers lib toolResults rows) := by
  unfold FitsRows
  induction rows generalizing toolResults with
  | nil => rfl
  | cons row rest ih =>
    rw [servedAnswers, List.map_cons, List.map_cons, ih, Fifo.length_serve, List.length_map]

theorem fitsRows_own (place : ℕ) (rows : List PersistedSessionMessage) :
    FitsRows lib rows (ownAnswers lib place rows) := by
  unfold FitsRows
  induction rows generalizing place with
  | nil => rfl
  | cons row rest ih => rw [ownAnswers, List.map_cons, List.map_cons, ih, List.length_map]

/-! Messages tell their answers. -/

/-- No piece is a result. -/
def PlainPieces (pieces : List Piece) : Prop := ∀ r, Piece.block (.toolResult r) ∉ pieces

theorem plainPieces_textPiece {block : Text → ContentBlock} {text : Option Text}
    (hblock : ∀ t r, block t ≠ .toolResult r) : PlainPieces (textPiece lib block text) := by
  intro r hr
  unfold textPiece at hr
  cases text with
  | none => exact absurd hr List.not_mem_nil
  | some text =>
    dsimp only at hr
    split_ifs at hr
    · exact absurd hr List.not_mem_nil
    · exact hblock _ r (Piece.block.inj (List.mem_singleton.mp hr)).symm

theorem plainPieces_row (row : PersistedSessionMessage) : PlainPieces (rowPieces lib row) := by
  have htext : ∀ text, PlainPieces (textPiece lib .text text) := fun text =>
    plainPieces_textPiece fun t r h => by cases h
  have hthinking : ∀ text, PlainPieces (textPiece lib .thinking text) := fun text =>
    plainPieces_textPiece fun t r h => by cases h
  have hcalls : ∀ value, PlainPieces (callPieces lib value) := by
    intro value r hr
    unfold callPieces at hr
    split at hr
    · obtain ⟨call, -, hcall⟩ := List.mem_map.mp hr
      cases hcall
    · exact absurd hr List.not_mem_nil
  have hobject : ∀ content : Json, PlainPieces
      (textPiece lib .thinking (textOf (content.get? "reasoning_content".toList)) ++
        textPiece lib .text (textOf (content.get? "content".toList)) ++
        callPieces lib (content.get? "tool_calls".toList)) := by
    intro content r hr
    rcases List.mem_append.mp hr with hr | hr
    · rcases List.mem_append.mp hr with hr | hr
      · exact hthinking _ r hr
      · exact htext _ r hr
    · exact hcalls _ r hr
  obtain ⟨seq, runId, role, content, notice⟩ := row
  unfold rowPieces
  cases content with
  | string text => exact htext _
  | array candidates =>
    intro r hr
    obtain ⟨candidate, -, hcandidate⟩ := List.mem_filterMap.mp hr
    unfold candidatePiece at hcandidate
    split at hcandidate <;> cases hcandidate
  | _ => exact hobject _

/-- The blocks that are shown tell the answers. -/
theorem shownBlocks_injective {pieces : List Piece} (hplain : PlainPieces pieces)
    {answers others : List (Option PersistedToolResult)}
    (hlength : answers.length = (pieces.filterMap Piece.id?).length)
    (hlength' : others.length = (pieces.filterMap Piece.id?).length)
    (h : shownBlocks pieces answers = shownBlocks pieces others) :
    answers.map (Option.map PersistedToolResult.block) =
      others.map (Option.map PersistedToolResult.block) := by
  induction pieces generalizing answers others with
  | nil =>
    rw [List.length_eq_zero_iff.mp hlength, List.length_eq_zero_iff.mp hlength']
  | cons p rest ih =>
    have hrest : PlainPieces rest := fun r hr => hplain r (List.mem_cons_of_mem _ hr)
    cases p with
    | block block => exact ih hrest hlength hlength' (List.cons.inj h).2
    | call id name input =>
      obtain ⟨a, answers, rfl⟩ := List.exists_cons_of_length_eq_add_one hlength
      obtain ⟨b, others, rfl⟩ := List.exists_cons_of_length_eq_add_one hlength'
      have hrestLength : answers.length = (rest.filterMap Piece.id?).length := Nat.succ.inj hlength
      have hrestLength' : others.length = (rest.filterMap Piece.id?).length :=
        Nat.succ.inj hlength'
      have htail : ∀ r (answers : List (Option PersistedToolResult)) blocks,
          shownBlocks rest answers ≠ ContentBlock.toolResult r :: blocks := by
        intro r answers blocks hfront
        cases rest with
        | nil => cases hfront
        | cons p rest =>
          cases p with
          | block block =>
            obtain rfl := (List.cons.inj hfront).1
            exact hrest r (List.mem_cons_self ..)
          | call id name input => cases hfront
      have hblocks := (List.cons.inj h).2
      rw [List.map_cons, List.map_cons]
      cases a with
      | none =>
        cases b with
        | none =>
          have hsame : shownBlocks rest answers = shownBlocks rest others := hblocks
          rw [ih hrest hrestLength hrestLength' hsame]
        | some r => exact absurd hblocks (htail _ _ _)
      | some r =>
        cases b with
        | none => exact absurd hblocks.symm (htail _ _ _)
        | some r' =>
          obtain ⟨hblock, hsame⟩ := List.cons.inj hblocks
          have hsame : shownBlocks rest answers = shownBlocks rest others := hsame
          rw [ih hrest hrestLength hrestLength' hsame, Option.map_some, Option.map_some,
            ContentBlock.toolResult.inj hblock]

/-- The blocks of a message, also when they are shown as a text. -/
def Message.blocks (m : Message) : List ContentBlock :=
  match m.content with
  | .text text => [.text text]
  | .blocks blocks => blocks

theorem assistantMessage_eq_none {row : PersistedSessionMessage} {blocks : List ContentBlock}
    {usage : Option Usage} {seq : Option ℤ} :
    assistantMessage row blocks usage seq = none ↔ blocks = [] := by
  unfold assistantMessage
  split
  · simp
  · simp
  · rename_i hne _
    exact iff_of_false (by simp) hne

theorem blocks_of_assistantMessage {row : PersistedSessionMessage} {blocks : List ContentBlock}
    {usage : Option Usage} {seq : Option ℤ} {m : Message}
    (h : assistantMessage row blocks usage seq = some m) :
    m.blocks = blocks ∧ m.sourceSeq = seq ∧ m.sourceRunId = row.runId ∧ m.run = none := by
  unfold assistantMessage at h
  split at h
  · cases h
  · obtain rfl := Option.some.inj h
    exact ⟨rfl, rfl, rfl, rfl⟩
  · obtain rfl := Option.some.inj h
    exact ⟨rfl, rfl, rfl, rfl⟩

theorem shownBlocks_eq_nil {pieces : List Piece} {answers : List (Option PersistedToolResult)} :
    shownBlocks pieces answers = [] ↔ pieces = [] := by
  cases pieces with
  | nil => exact iff_of_true rfl rfl
  | cons p rest => cases p <;> simp [shownBlocks]

/-- Whether a row has a message does not depend on the answers. -/
theorem rowMessage_eq_none_iff {row : PersistedSessionMessage}
    (answers others : List (Option PersistedToolResult)) :
    rowMessage lib row answers = none ↔ rowMessage lib row others = none := by
  unfold rowMessage
  split
  · exact Iff.rfl
  · unfold messageWith
    rw [assistantMessage_eq_none, assistantMessage_eq_none, shownBlocks_eq_nil, shownBlocks_eq_nil]
  · exact Iff.rfl

theorem rowMessage_injective {row : PersistedSessionMessage}
    {answers others : List (Option PersistedToolResult)}
    (hlength : answers.length = (shownCalls lib row).length)
    (hlength' : others.length = (shownCalls lib row).length)
    (h : rowMessage lib row answers = rowMessage lib row others) :
    answers.map (Option.map PersistedToolResult.block) =
      others.map (Option.map PersistedToolResult.block) := by
  unfold shownCalls at hlength hlength'
  split_ifs at hlength hlength' with hrole
  · unfold rowMessage at h
    rw [hrole] at h
    apply shownBlocks_injective (plainPieces_row row) hlength hlength'
    have h : messageWith lib row answers = messageWith lib row others := h
    unfold messageWith at h
    cases hmessage : assistantMessage row (shownBlocks (rowPieces lib row) answers)
        (rowUsage lib row) (shownSeq row.seq answers) with
    | none =>
      rw [hmessage] at h
      rw [assistantMessage_eq_none.mp hmessage, assistantMessage_eq_none.mp h.symm]
    | some m =>
      rw [hmessage] at h
      rw [← (blocks_of_assistantMessage hmessage).1, (blocks_of_assistantMessage h.symm).1]
  · rw [List.length_eq_zero_iff.mp hlength, List.length_eq_zero_iff.mp hlength']

/-- Equal messages have been given the same blocks, by induction on the rows. -/
theorem messagesWith_injective {rows : List PersistedSessionMessage}
    {answers others : List (List (Option PersistedToolResult))}
    (hfits : FitsRows lib rows answers) (hfits' : FitsRows lib rows others)
    (h : messagesWith lib rows answers = messagesWith lib rows others) :
    answers.flatten.map (Option.map PersistedToolResult.block) =
      others.flatten.map (Option.map PersistedToolResult.block) := by
  induction rows generalizing answers others with
  | nil =>
    rw [List.map_eq_nil_iff.mp hfits, List.map_eq_nil_iff.mp hfits']
  | cons row rest ih =>
    obtain ⟨a, answers, rfl, hlength, hrest⟩ := List.map_eq_cons_iff.mp hfits
    obtain ⟨b, others, rfl, hlength', hrest'⟩ := List.map_eq_cons_iff.mp hfits'
    rw [messagesWith, messagesWith] at h
    rw [List.flatten_cons, List.flatten_cons, List.map_append, List.map_append]
    cases hmessage : rowMessage lib row a with
    | none =>
      have hnone := (rowMessage_eq_none_iff a b).mp hmessage
      rw [hmessage, hnone] at h
      rw [rowMessage_injective hlength hlength' (hmessage.trans hnone.symm), ih hrest hrest' h]
    | some m =>
      obtain ⟨m', hm'⟩ := Option.ne_none_iff_exists'.mp fun hnone =>
        Option.some_ne_none m (hmessage.symm.trans ((rowMessage_eq_none_iff a b).mpr hnone))
      rw [hmessage, hm'] at h
      obtain ⟨rfl, hothers⟩ := List.cons.inj h
      have hothers : messagesWith lib rest answers = messagesWith lib rest others := hothers
      rw [rowMessage_injective hlength hlength' (hmessage.trans hm'.symm), ih hrest hrest' hothers]

/-! The queues of stored rows. -/

/-- The results of a key that may be shown. -/
def shownResultsOf (key : Text) (events : List Event) : List PersistedToolResult :=
  events.filterMap fun
    | .result result runId shown =>
      if shown = true ∧ toolKey runId result.block.toolUseId = key then some result else none
    | .call _ _ _ => none

theorem visibleRole_eq_some {row : PersistedSessionMessage} {role : VisibleRole}
    (h : visibleRole lib row = some role) : normalizeVisibleRole lib row.role = some role := by
  unfold visibleRole at h
  by_cases hnotice : row.harnessNotice = true
  · rw [if_pos hnotice] at h
    cases h
  rw [if_neg hnotice] at h
  obtain ⟨outer, houter, h⟩ := Option.bind_eq_some_iff.mp h
  rw [houter]
  split_ifs at h with hobject hinternal
  · exact h
  · split at h
    · exact h
    · split_ifs at h
      exact h
    · cases h

theorem shownResultsOf_append (key : Text) (events others : List Event) :
    shownResultsOf key (events ++ others) =
      shownResultsOf key events ++ shownResultsOf key others := List.filterMap_append

theorem shownResultsOf_cons_result (key : Text) (result : PersistedToolResult)
    (runId : Option Text) (shown : Bool) (events : List Event) :
    shownResultsOf key (.result result runId shown :: events) =
      (if shown = true ∧ toolKey runId result.block.toolUseId = key then [result] else []) ++
        shownResultsOf key events := by
  unfold shownResultsOf
  by_cases hshown : shown = true ∧ toolKey runId result.block.toolUseId = key
  · simp only [List.filterMap_cons, if_pos hshown, List.cons_append, List.nil_append]
  · simp only [List.filterMap_cons, if_neg hshown, List.nil_append]

theorem shownResultsOf_callEvents (key : Text) (row : PersistedSessionMessage) :
    shownResultsOf key (callEvents lib row) = [] := by
  unfold shownResultsOf callEvents
  split_ifs
  · rw [List.filterMap_map]
    exact List.filterMap_eq_nil_iff.mpr fun _ _ => rfl
  · rfl

theorem foldl_queue (runId : Option Text) (seq : Option ℤ) (blocks : List ToolResultBlock)
    (results : ToolResults) (key : Text) :
    blocks.foldl (fun results block =>
        let key := toolKey runId block.toolUseId
        Function.update results key (results key ++ [⟨block, seq⟩])) results key =
      results key ++
        shownResultsOf key (blocks.map fun block => .result ⟨block, seq⟩ runId true) := by
  induction blocks generalizing results with
  | nil => exact (List.append_nil _).symm
  | cons block rest ih =>
    rw [List.foldl_cons, ih, List.map_cons]
    unfold shownResultsOf
    by_cases hkey : toolKey runId block.toolUseId = key
    · rw [hkey, Function.update_self, List.filterMap_cons_some (by simp [hkey]; rfl)]
      simp
    · rw [Function.update_of_ne (Ne.symm hkey), List.filterMap_cons_none (by simp [hkey])]

/-- The queues hold the results of their keys that may be shown, in the order of the rows. -/
theorem collectToolResults_eq (rows : List PersistedSessionMessage) (key : Text) :
    collectToolResults lib rows key = shownResultsOf key (eventsFrom lib 0 rows) := by
  have hfold : ∀ (rows : List PersistedSessionMessage) (place : ℕ) (results : ToolResults),
      (rows.zipIdx place).foldl (fun results entry =>
        match visibleRole lib entry.1 with
        | none => results
        | some .user => results
        | some role =>
          (rowToolResults lib entry.2 role entry.1).foldl (fun results block =>
            let key := toolKey entry.1.runId block.toolUseId
            Function.update results key (results key ++ [⟨block, entry.1.seq⟩])) results) results key =
        results key ++ shownResultsOf key (eventsFrom lib place rows) := by
    intro rows
    induction rows with
    | nil => exact fun _ _ => (List.append_nil _).symm
    | cons row rest ih =>
      intro place results
      rw [List.zipIdx_cons, List.foldl_cons, ih, eventsFrom, shownResultsOf_append,
        shownResultsOf_append, shownResultsOf_callEvents, List.nil_append, ← List.append_assoc]
      congr 1
      unfold resultEvents
      dsimp only
      cases hrole : visibleRole lib row with
      | none =>
        have hnone : ∀ role, shownResultsOf key ((rowToolResults lib place role row).map fun block =>
            Event.result ⟨block, row.seq⟩ row.runId (none : Option VisibleRole).isSome) = [] := by
          intro role
          unfold shownResultsOf
          rw [List.filterMap_map]
          exact List.filterMap_eq_nil_iff.mpr fun _ _ => by simp
        cases normalizeVisibleRole lib row.role with
        | none => exact (List.append_nil _).symm
        | some role =>
          cases role with
          | user => exact (List.append_nil _).symm
          | _ =>
            dsimp only
            rw [hnone, List.append_nil]
      | some role =>
        rw [visibleRole_eq_some hrole]
        cases role with
        | user => exact (List.append_nil _).symm
        | _ => exact foldl_queue row.runId row.seq _ results key
  exact hfold rows 0 fun _ => []

/-! Calls and their own results. -/

theorem toolKey_injective (runId : Option Text) : Function.Injective (toolKey runId) := by
  intro a b h
  exact (List.cons.inj (List.append_cancel_left h)).2

theorem ownResult_calls (id : Text) (ids : List Text) (runId : Option Text) (shown : Bool)
    (events : List Event) :
    ownResult id ((ids.map fun id => Event.call id runId shown) ++ events) =
      ownResult id events := by
  induction ids with
  | nil => rfl
  | cons _ ids ih => exact ih

theorem exchanges_calls (ids : List Text) (runId : Option Text) (shown : Bool)
    (events : List Event) :
    exchanges ((ids.map fun id => Event.call id runId shown) ++ events) =
      (ids.map fun id => ⟨toolKey runId id, shown, ownResult id events⟩) ++ exchanges events := by
  induction ids with
  | nil => rfl
  | cons id ids ih =>
    rw [List.map_cons, List.cons_append, exchanges, ih, ownResult_calls]
    rfl

theorem exchanges_results (place : ℕ) (row : PersistedSessionMessage) (events : List Event) :
    exchanges (resultEvents lib place row ++ events) = exchanges events := by
  have hresults : ∀ blocks : List ToolResultBlock, exchanges ((blocks.map fun block =>
      Event.result ⟨block, row.seq⟩ row.runId (visibleRole lib row).isSome) ++ events) =
      exchanges events := by
    intro blocks
    induction blocks with
    | nil => rfl
    | cons block rest ih => exact ih
  unfold resultEvents
  split
  · rfl
  · rfl
  · exact hresults _

/-- Of a row those calls are asked for that may be shown, with their own results. -/
theorem asking_row (row : PersistedSessionMessage) (events : List Event) :
    Fifo.asking (exchanges (callEvents lib row ++ events)) =
      ((shownCalls lib row).map fun id =>
        ⟨toolKey row.runId id, true, ownResult id events⟩) ++ Fifo.asking (exchanges events) := by
  unfold callEvents shownCalls
  by_cases houter : normalizeVisibleRole lib row.role = some .assistant
  · rw [if_pos houter, exchanges_calls]
    unfold Fifo.asking
    rw [List.filter_append]
    congr 1
    cases hrole : visibleRole lib row with
    | none =>
      rw [if_neg (by simp), List.map_nil]
      exact List.filter_eq_nil_iff.mpr fun e he => by
        obtain ⟨id, -, rfl⟩ := List.mem_map.mp he
        simp
    | some role =>
      obtain rfl : VisibleRole.assistant = role :=
        Option.some.inj (houter.symm.trans (visibleRole_eq_some hrole))
      rw [if_pos rfl]
      exact List.filter_eq_self.mpr fun e he => by
        obtain ⟨id, -, rfl⟩ := List.mem_map.mp he
        rfl
  · have hrole : visibleRole lib row ≠ some .assistant := fun h => houter (visibleRole_eq_some h)
    rw [if_neg houter, if_neg hrole]
    rfl

theorem asking_keys (place : ℕ) (rows : List PersistedSessionMessage) :
    (Fifo.asking (exchanges (eventsFrom lib place rows))).map Fifo.Exchange.key =
      askedKeys lib rows := by
  induction rows generalizing place with
  | nil => rfl
  | cons row rest ih =>
    have hkeys : askedKeys lib (row :: rest) =
        (shownCalls lib row).map (toolKey row.runId) ++ askedKeys lib rest := List.flatMap_cons ..
    rw [eventsFrom, List.append_assoc, asking_row, exchanges_results, List.map_append, ih,
      List.map_map, hkeys]
    rfl

theorem asking_answers (place : ℕ) (rows : List PersistedSessionMessage) :
    (Fifo.asking (exchanges (eventsFrom lib place rows))).map Fifo.Exchange.answer =
      (ownAnswers lib place rows).flatten := by
  induction rows generalizing place with
  | nil => rfl
  | cons row rest ih =>
    rw [eventsFrom, List.append_assoc, asking_row, exchanges_results, List.map_append, ih,
      List.map_map, ownAnswers, List.flatten_cons]
    rfl

theorem filterMap_erase {α β : Type*} [BEq α] [LawfulBEq α] {f : α → Option β} {a : α} (ha : f a = none)
    (l : List α) : (l.erase a).filterMap f = l.filterMap f := by
  induction l with
  | nil => rfl
  | cons b l ih =>
    by_cases hb : b = a
    · subst hb
      rw [List.erase_cons_head, List.filterMap_cons_none ha]
    · rw [List.erase_cons_tail (by simpa using hb), List.filterMap_cons, List.filterMap_cons, ih]

theorem filterMap_only {α β : Type*} {f : α → Option β} {a : α} {l : List α} (hmem : a ∈ l)
    (hnodup : l.Nodup) (hothers : ∀ b ∈ l, b ≠ a → f b = none) :
    l.filterMap f = (f a).toList := by
  obtain ⟨before, after, rfl⟩ := List.append_of_mem hmem
  obtain ⟨-, hafter, hdisjoint⟩ := List.nodup_append'.mp hnodup
  have hnone : ∀ b ∈ before ++ after, f b = none := by
    intro b hb
    apply hothers b
    · simp only [List.mem_append, List.mem_cons] at hb ⊢
      tauto
    · rintro rfl
      rcases List.mem_append.mp hb with hb | hb
      · exact hdisjoint hb (List.mem_cons_self ..)
      · exact (List.nodup_cons.mp hafter).1 hb
  have hbefore : before.filterMap f = [] :=
    List.filterMap_eq_nil_iff.mpr fun b hb => hnone b (List.mem_append_left _ hb)
  have hafter : after.filterMap f = [] :=
    List.filterMap_eq_nil_iff.mpr fun b hb => hnone b (List.mem_append_right _ hb)
  rw [List.filterMap_append, List.filterMap_cons, hbefore, hafter]
  cases f a <;> rfl

/-- In turn the results of a key are the own results of its calls; those that wait have one
left. By induction on the events. -/
theorem shownResultsOf_exchanges {waiting : List Text} {run : Option Text} {events : List Event}
    (h : AnswersInTurn waiting run events) (hnodup : waiting.Nodup) (key : Text) :
    shownResultsOf key events =
      (waiting.filterMap fun id => if toolKey run id = key then ownResult id events else none) ++
        Fifo.answersOf key (exchanges events) := by
  induction events generalizing waiting run with
  | nil =>
    have hnone : (waiting.filterMap fun id =>
        if toolKey run id = key then ownResult id [] else none) = [] := by
      apply List.filterMap_eq_nil_iff.mpr
      intro id _
      split_ifs <;> rfl
    rw [hnone]
    rfl
  | cons event events ih =>
    cases event with
    | call id runId shown =>
      obtain ⟨hrun, hnot, hrest⟩ := h
      have hstep := ih hrest (List.nodup_cons.mpr ⟨hnot, hnodup⟩)
      have hsame : (waiting.filterMap fun id' =>
          if toolKey runId id' = key then ownResult id' events else none) =
          waiting.filterMap fun id' =>
            if toolKey run id' = key then ownResult id' (.call id runId shown :: events)
              else none := by
        apply List.filterMap_congr
        intro id' hid'
        rw [hrun (List.ne_nil_of_mem hid')]
        rfl
      show shownResultsOf key events = _
      rw [hstep, exchanges, Fifo.answersOf_cons]
      dsimp only
      by_cases hkey : toolKey runId id = key
      · have hnil : (waiting.filterMap fun id' =>
            if toolKey runId id' = key then ownResult id' events else none) = [] := by
          apply List.filterMap_eq_nil_iff.mpr
          intro id' hid'
          apply if_neg
          intro hkey'
          have hid := toolKey_injective runId (hkey'.trans hkey.symm)
          exact hnot (hid ▸ hid')
        rw [← hsame, hnil, if_pos hkey, List.nil_append]
        congr 1
        cases hown : ownResult id events with
        | none =>
          rw [List.filterMap_cons_none (by rw [if_pos hkey, hown]), hnil]
          rfl
        | some r =>
          rw [List.filterMap_cons_some (by rw [if_pos hkey, hown]), hnil]
          rfl
      · have hskip : ((id :: waiting).filterMap fun id' =>
            if toolKey runId id' = key then ownResult id' events else none) =
            waiting.filterMap fun id' =>
              if toolKey runId id' = key then ownResult id' events else none :=
          List.filterMap_cons_none (if_neg hkey)
        rw [hskip, hsame, if_neg hkey, List.nil_append]
    | result result runId shown =>
      obtain ⟨rfl, hmem, hrest⟩ := h
      rw [shownResultsOf_cons_result, ih hrest (hnodup.erase _), exchanges, ← List.append_assoc]
      congr 1
      have hfirst : ownResult result.block.toolUseId (.result result runId shown :: events) =
          if shown then some result else none := if_pos rfl
      have hlater : ∀ id ∈ waiting, id ≠ result.block.toolUseId →
          ownResult id (.result result runId shown :: events) = ownResult id events :=
        fun id _ hne => if_neg (Ne.symm hne)
      by_cases hkey : toolKey runId result.block.toolUseId = key
      · have hothers : ∀ id, id ≠ result.block.toolUseId → toolKey runId id ≠ key :=
          fun id hne hid => hne (toolKey_injective runId (hid.trans hkey.symm))
        have hnil : ((waiting.erase result.block.toolUseId).filterMap fun id =>
            if toolKey runId id = key then ownResult id events else none) = [] := by
          apply List.filterMap_eq_nil_iff.mpr
          intro id hid
          apply if_neg
          apply hothers
          exact (hnodup.mem_erase_iff.mp hid).1
        rw [hnil, List.append_nil, filterMap_only hmem hnodup
          (fun id _ hne => if_neg (hothers id hne)), if_pos hkey, hfirst]
        cases shown <;> simp [hkey]
      · rw [if_neg (fun h => hkey h.2), List.nil_append]
        rw [← filterMap_erase (a := result.block.toolUseId) (if_neg hkey) waiting]
        apply List.filterMap_congr
        intro id hid
        rw [hlater id (List.mem_of_mem_erase hid) (hnodup.mem_erase_iff.mp hid).1]

end

end DeepseekScience.Frontend
