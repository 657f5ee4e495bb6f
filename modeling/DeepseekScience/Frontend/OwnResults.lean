import DeepseekScience.Frontend.Restored
import DeepseekScience.Frontend.RunFooters

/-! A restored session shows every call with its own result and every run at its last message
exactly when no queue of results is shifted by a call or a result that is hidden. -/
namespace DeepseekScience.Frontend

section
variable {lib : BrowserLib}

/-! Results are told apart by where they come from. -/

def Event.result? : Event → Option PersistedToolResult
  | .result r .. => some r
  | .call .. => none

def eventResults (events : List Event) : List PersistedToolResult :=
  events.filterMap Event.result?

theorem eventResults_append (events others : List Event) :
    eventResults (events ++ others) = eventResults events ++ eventResults others :=
  List.filterMap_append

theorem shownResultsOf_sublist (key : Text) (events : List Event) :
    (shownResultsOf key events).Sublist (eventResults events) := by
  induction events with
  | nil => exact List.Sublist.slnil
  | cons event events ih =>
    cases event with
    | call id runId shown => exact ih
    | result result runId shown =>
      rw [shownResultsOf_cons_result]
      show List.Sublist _ (result :: eventResults events)
      split_ifs
      · exact ih.cons_cons result
      · exact ih.cons result

theorem sanitizeBlock_origin {origin : ℕ × ℕ} {value : Json} {block : ToolResultBlock}
    (h : sanitizeBlock lib origin value = some (.toolResult block)) : block.origin = origin := by
  unfold sanitizeBlock at h
  split at h
  · obtain ⟨kind, -, h⟩ := Option.bind_eq_some_iff.mp h
    split_ifs at h
    · obtain ⟨_, -, h⟩ := Option.bind_eq_some_iff.mp h
      cases h
    · obtain ⟨_, -, h⟩ := Option.bind_eq_some_iff.mp h
      cases h
    · obtain ⟨_, -, h⟩ := Option.bind_eq_some_iff.mp h
      obtain ⟨_, -, h⟩ := Option.bind_eq_some_iff.mp h
      cases h
    · obtain ⟨_, -, h⟩ := Option.bind_eq_some_iff.mp h
      obtain ⟨_, -, h⟩ := Option.bind_eq_some_iff.mp h
      cases h
      rfl
  · cases h

theorem resultBlock_origin {origin : ℕ × ℕ} {candidate : Json} {block : ToolResultBlock}
    (h : resultBlock lib origin candidate = some block) : block.origin = origin := by
  unfold resultBlock at h
  split at h
  · rename_i heq
    obtain rfl := Option.some.inj h
    exact sanitizeBlock_origin heq
  · cases h

theorem objectToolResults_origins (place : ℕ) (role : VisibleRole) (content : Json) :
    (∀ block ∈ objectToolResults place role content, block.origin.1 = place) ∧
      ((objectToolResults place role content).map ToolResultBlock.origin).Nodup := by
  unfold objectToolResults
  split_ifs
  · split <;> simp
  · simp

/-- The results of a row come from that row, each from its own place. -/
theorem rowToolResults_origins (place : ℕ) (role : VisibleRole) (row : PersistedSessionMessage) :
    (∀ block ∈ rowToolResults lib place role row, block.origin.1 = place) ∧
      ((rowToolResults lib place role row).map ToolResultBlock.origin).Nodup := by
  unfold rowToolResults
  split
  · rename_i candidates _
    constructor
    · intro block hblock
      obtain ⟨c, -, hc⟩ := List.mem_filterMap.mp hblock
      rw [resultBlock_origin hc]
    · have hplaces : candidates.zipIdx.Pairwise fun c c' => c.2 ≠ c'.2 := by
        apply List.pairwise_map.mp
        show (candidates.zipIdx.map Prod.snd).Nodup
        rw [List.zipIdx_map_snd]
        exact List.nodup_range'
      apply List.pairwise_map.mpr
      apply hplaces.filterMap
      intro c c' hne block hblock block' hblock' heq
      rw [resultBlock_origin hblock, resultBlock_origin hblock'] at heq
      exact hne (Prod.mk.inj heq).2
  · exact objectToolResults_origins place role _

theorem eventResults_resultEvents (place : ℕ) (row : PersistedSessionMessage) :
    eventResults (resultEvents lib place row) = [] ∨ ∃ role,
      eventResults (resultEvents lib place row) =
        (rowToolResults lib place role row).map fun block => ⟨block, row.seq⟩ := by
  unfold resultEvents
  split
  · exact Or.inl rfl
  · exact Or.inl rfl
  · rename_i role _ _
    apply Or.inr
    use role
    unfold eventResults
    rw [List.filterMap_map, ← List.filterMap_eq_map]
    rfl

theorem eventResults_callEvents (row : PersistedSessionMessage) :
    eventResults (callEvents lib row) = [] := by
  unfold eventResults callEvents
  split_ifs
  · rw [List.filterMap_map]
    exact List.filterMap_eq_nil_iff.mpr fun _ _ => rfl
  · rfl

/-- No two results of a session come from the same place, by induction on the rows. -/
theorem eventResults_origins (place : ℕ) (rows : List PersistedSessionMessage) :
    (∀ r ∈ eventResults (eventsFrom lib place rows), place ≤ r.block.origin.1) ∧
      ((eventResults (eventsFrom lib place rows)).map fun r => r.block.origin).Nodup := by
  induction rows generalizing place with
  | nil => simp [eventsFrom, eventResults]
  | cons row rest ih =>
    obtain ⟨hle, hnodup⟩ := ih (place + 1)
    rw [eventsFrom, eventResults_append, eventResults_append, eventResults_callEvents,
      List.nil_append]
    have hrow : (∀ r ∈ eventResults (resultEvents lib place row), r.block.origin.1 = place) ∧
        ((eventResults (resultEvents lib place row)).map fun r => r.block.origin).Nodup := by
      rcases @eventResults_resultEvents lib place row with hnil | ⟨role, hrole⟩
      · rw [hnil]
        simp
      · obtain ⟨hplace, hdistinct⟩ := @rowToolResults_origins lib place role row
        rw [hrole, List.map_map]
        constructor
        · intro r hr
          obtain ⟨block, hblock, rfl⟩ := List.mem_map.mp hr
          exact hplace block hblock
        · exact hdistinct
    constructor
    · intro r hr
      rcases List.mem_append.mp hr with hr | hr
      · exact (hrow.1 r hr).ge
      · have := hle r hr
        omega
    · rw [List.map_append, List.nodup_append']
      constructor
      · exact hrow.2
      · constructor
        · exact hnodup
        · intro origin horigin horigin'
          obtain ⟨r, hr, rfl⟩ := List.mem_map.mp horigin
          obtain ⟨r', hr', heq⟩ := List.mem_map.mp horigin'
          have hplace := hrow.1 r hr
          have hlater := hle r' hr'
          rw [heq] at hlater
          omega

/-- Results with the same block are the same. -/
theorem block_injOn {place : ℕ} {rows : List PersistedSessionMessage} {r r' : PersistedToolResult}
    (hr : r ∈ eventResults (eventsFrom lib place rows))
    (hr' : r' ∈ eventResults (eventsFrom lib place rows)) (h : r.block = r'.block) : r = r' := by
  apply List.inj_on_of_nodup_map (@eventResults_origins lib place rows).2 hr hr'
  rw [h]

theorem eventResults_nodup (place : ℕ) (rows : List PersistedSessionMessage) :
    (eventResults (eventsFrom lib place rows)).Nodup :=
  List.Nodup.of_map _ (@eventResults_origins lib place rows).2

theorem mem_shownResultsOf {key : Text} {r : PersistedToolResult} {events : List Event} :
    r ∈ shownResultsOf key events ↔
      ∃ runId, Event.result r runId true ∈ events ∧ toolKey runId r.block.toolUseId = key := by
  induction events with
  | nil => simp [shownResultsOf]
  | cons event events ih =>
    cases event with
    | call id runId shown =>
      show r ∈ shownResultsOf key events ↔ _
      rw [ih]
      simp
    | result result runId shown =>
      rw [shownResultsOf_cons_result, List.mem_append, ih]
      constructor
      · rintro (h | ⟨runId', hmem, hkey⟩)
        · split_ifs at h with hshown
          · obtain rfl := List.mem_singleton.mp h
            use runId
            rw [hshown.1]
            exact ⟨List.mem_cons_self .., hshown.2⟩
          · exact absurd h List.not_mem_nil
        · exact ⟨runId', List.mem_cons_of_mem _ hmem, hkey⟩
      · rintro ⟨runId', hmem, hkey⟩
        rcases List.mem_cons.mp hmem with heq | hmem
        · obtain ⟨rfl, rfl, rfl⟩ := Event.result.inj heq
          left
          rw [if_pos ⟨rfl, hkey⟩]
          exact List.mem_singleton_self _
        · exact Or.inr ⟨runId', hmem, hkey⟩

/-- A result has one run. -/
theorem event_of_result {place : ℕ} {rows : List PersistedSessionMessage} {r : PersistedToolResult}
    {runId runId' : Option Text} {shown shown' : Bool}
    (h : Event.result r runId shown ∈ eventsFrom lib place rows)
    (h' : Event.result r runId' shown' ∈ eventsFrom lib place rows) : runId = runId' := by
  have hnodup := @eventResults_nodup lib place rows
  rw [eventResults, List.Nodup, List.pairwise_filterMap] at hnodup
  have hsymm : Std.Symm fun e e' : Event =>
      ∀ b, e.result? = some b → ∀ b', e'.result? = some b' → b ≠ b' :=
    ⟨fun _ _ hpair b hb b' hb' heq => hpair b' hb' b hb heq.symm⟩
  by_contra hne
  have hdiffer : Event.result r runId shown ≠ Event.result r runId' shown' :=
    fun heq => hne (Event.result.inj heq).2.1
  exact hnodup.forall h h' hdiffer r rfl r rfl rfl

/-- No result waits twice. -/
theorem collectToolResults_distinct (rows : List PersistedSessionMessage) :
    Fifo.Distinct (collectToolResults lib rows) := by
  constructor
  · intro key
    rw [collectToolResults_eq]
    exact (eventResults_nodup 0 rows).sublist (shownResultsOf_sublist key _)
  · intro key key' r hr hr'
    rw [collectToolResults_eq] at hr hr'
    obtain ⟨runId, hmem, hkey⟩ := mem_shownResultsOf.mp hr
    obtain ⟨runId', hmem', hkey'⟩ := mem_shownResultsOf.mp hr'
    rw [← hkey, ← hkey', event_of_result hmem hmem']

/-! Restored messages and the transcript. -/

theorem map_block_inj {answers others : List (Option PersistedToolResult)}
    {results : List PersistedToolResult}
    (hinj : ∀ r ∈ results, ∀ r' ∈ results, r.block = r'.block → r = r')
    (hanswers : ∀ r, some r ∈ answers → r ∈ results) (hothers : ∀ r, some r ∈ others → r ∈ results)
    (h : answers.map (Option.map PersistedToolResult.block) =
      others.map (Option.map PersistedToolResult.block)) : answers = others := by
  induction answers generalizing others with
  | nil => exact (List.map_eq_nil_iff.mp h.symm).symm
  | cons a answers ih =>
    obtain ⟨b, others, rfl, hhead, htail⟩ := List.map_eq_cons_iff.mp h.symm
    have hrest := ih (fun r hr => hanswers r (List.mem_cons_of_mem _ hr))
      (fun r hr => hothers r (List.mem_cons_of_mem _ hr)) htail.symm
    rw [hrest]
    congr 1
    cases a with
    | none => exact (Option.map_eq_none_iff.mp hhead).symm
    | some r =>
      obtain ⟨r', rfl, hblock⟩ := Option.map_eq_some_iff.mp hhead
      rw [hinj r (hanswers r (List.mem_cons_self ..)) r' (hothers r' (List.mem_cons_self ..))
        hblock.symm]

theorem shownResultsOf_inTurn {rows : List PersistedSessionMessage}
    (hturn : AnswersInTurn [] none (eventsFrom lib 0 rows)) (key : Text) :
    shownResultsOf key (eventsFrom lib 0 rows) =
      Fifo.answersOf key (exchanges (eventsFrom lib 0 rows)) :=
  shownResultsOf_exchanges hturn List.nodup_nil key

theorem mem_eventResults_of_own {rows : List PersistedSessionMessage}
    (hturn : AnswersInTurn [] none (eventsFrom lib 0 rows)) {r : PersistedToolResult}
    (hr : some r ∈ (ownAnswers lib 0 rows).flatten) :
    r ∈ eventResults (eventsFrom lib 0 rows) := by
  rw [← asking_answers] at hr
  obtain ⟨e, he, hanswer⟩ := List.mem_map.mp hr
  have hmem : r ∈ Fifo.answersOf e.key (exchanges (eventsFrom lib 0 rows)) :=
    Fifo.mem_answersOf.mpr ⟨e, (List.mem_filter.mp he).1, rfl, hanswer⟩
  rw [← shownResultsOf_inTurn hturn] at hmem
  exact (shownResultsOf_sublist e.key _).subset hmem

theorem mem_eventResults_of_served {rows : List PersistedSessionMessage} {r : PersistedToolResult}
    (hr : some r ∈ (servedAnswers lib (collectToolResults lib rows) rows).flatten) :
    r ∈ eventResults (eventsFrom lib 0 rows) := by
  rw [servedAnswers_flatten] at hr
  obtain ⟨key, hkey⟩ := Fifo.mem_of_serve hr
  rw [collectToolResults_eq] at hkey
  exact (shownResultsOf_sublist key _).subset hkey

/-- The restored messages are the transcript exactly when the queues give every call its own
result. -/
theorem restored_eq_transcript_iff {rows : List PersistedSessionMessage}
    (hturn : AnswersInTurn [] none (eventsFrom lib 0 rows)) :
    restoreVisibleMessages lib rows = transcript lib rows ↔
      Fifo.Aligned (exchanges (eventsFrom lib 0 rows)) := by
  have hqueues : ∀ key, collectToolResults lib rows key =
      [] ++ Fifo.answersOf key (exchanges (eventsFrom lib 0 rows)) := by
    intro key
    rw [collectToolResults_eq, shownResultsOf_inTurn hturn, List.nil_append]
  have hown := @Fifo.serve_own_iff _ _ _ _ _ (fun _ => []) hqueues
    (collectToolResults_distinct rows).nodup
  rw [asking_keys, asking_answers, ← servedAnswers_flatten] at hown
  unfold restoreVisibleMessages transcript
  rw [restoreRows_eq]
  constructor
  · intro h
    have hblocks := messagesWith_injective (fitsRows_served _ rows) (fitsRows_own 0 rows) h
    have hsame := map_block_inj (fun r hr r' hr' => block_injOn hr hr')
      (fun r hr => mem_eventResults_of_served hr) (fun r hr => mem_eventResults_of_own hturn hr)
      hblocks
    exact (hown.mp hsame).1
  · intro haligned
    have hsame := hown.mpr ⟨haligned, fun e _ hne => absurd rfl hne⟩
    have hfits := (@fitsRows_served lib (collectToolResults lib rows) rows).trans
      (fitsRows_own 0 rows).symm
    rw [List.eq_iff_flatten_eq.mpr ⟨hsame, hfits⟩]

/-! No result is shown twice. -/

def ContentBlock.result? : ContentBlock → Option ToolResultBlock
  | .toolResult r => some r
  | _ => none

/-- The results that messages show. -/
def shownResults (messages : List Message) : List ToolResultBlock :=
  messages.flatMap fun m => m.blocks.filterMap ContentBlock.result?

theorem results_shownBlocks {pieces : List Piece} (hplain : PlainPieces pieces)
    {answers : List (Option PersistedToolResult)}
    (hlength : answers.length = (pieces.filterMap Piece.id?).length) :
    (shownBlocks pieces answers).filterMap ContentBlock.result? =
      (answers.filterMap id).map PersistedToolResult.block := by
  induction pieces generalizing answers with
  | nil =>
    rw [List.length_eq_zero_iff.mp hlength]
    rfl
  | cons p rest ih =>
    have hrest : PlainPieces rest := fun r hr => hplain r (List.mem_cons_of_mem _ hr)
    cases p with
    | block block =>
      have hnone : block.result? = none := by
        cases block with
        | toolResult r => exact absurd (List.mem_cons_self ..) (hplain r)
        | _ => rfl
      rw [shownBlocks, List.filterMap_cons_none hnone]
      exact ih hrest hlength
    | call id name input =>
      obtain ⟨a, answers, rfl⟩ := List.exists_cons_of_length_eq_add_one hlength
      have hstep := @ih hrest answers (Nat.succ.inj hlength)
      rw [shownBlocks, List.filterMap_cons_none rfl, List.filterMap_append, List.tail_cons, hstep]
      cases a with
      | none => rfl
      | some r => rfl

theorem restoreUserMessage_fields {row : PersistedSessionMessage} {m : Message}
    (h : restoreUserMessage lib row = some m) :
    m.blocks.filterMap ContentBlock.result? = [] ∧ m.sourceSeq = row.seq ∧
      m.sourceRunId = row.runId ∧ m.run = none := by
  unfold restoreUserMessage at h
  dsimp only at h
  split_ifs at h
  obtain rfl := Option.some.inj h
  exact ⟨rfl, rfl, rfl, rfl⟩

theorem results_rowMessage {row : PersistedSessionMessage}
    {answers : List (Option PersistedToolResult)}
    (hlength : answers.length = (shownCalls lib row).length) :
    shownResults (rowMessage lib row answers).toList =
      (answers.filterMap id).map PersistedToolResult.block := by
  unfold shownCalls at hlength
  split_ifs at hlength with hrole
  · have hresults := results_shownBlocks (plainPieces_row row) hlength
    unfold rowMessage
    rw [hrole]
    show shownResults (messageWith lib row answers).toList = _
    rw [← hresults]
    cases hmessage : messageWith lib row answers with
    | none =>
      rw [assistantMessage_eq_none.mp hmessage]
      rfl
    | some m =>
      rw [← (blocks_of_assistantMessage hmessage).1]
      exact List.append_nil _
  · rw [List.length_eq_zero_iff.mp hlength]
    unfold rowMessage
    split
    · cases hmessage : restoreUserMessage lib row with
      | none => rfl
      | some m =>
        show m.blocks.filterMap ContentBlock.result? ++ [] = []
        rw [(restoreUserMessage_fields hmessage).1]
        rfl
    · exact absurd (by assumption) hrole
    · rfl

theorem results_messagesWith {rows : List PersistedSessionMessage}
    {answers : List (List (Option PersistedToolResult))} (hfits : FitsRows lib rows answers) :
    shownResults (messagesWith lib rows answers) =
      (answers.flatten.filterMap id).map PersistedToolResult.block := by
  induction rows generalizing answers with
  | nil =>
    rw [List.map_eq_nil_iff.mp hfits]
    rfl
  | cons row rest ih =>
    obtain ⟨a, answers, rfl, hlength, hrest⟩ := List.map_eq_cons_iff.mp hfits
    have happend : shownResults ((rowMessage lib row a).toList ++ messagesWith lib rest answers) =
        shownResults (rowMessage lib row a).toList ++
          shownResults (messagesWith lib rest answers) := List.flatMap_append
    rw [messagesWith, happend, results_rowMessage hlength, ih hrest, List.flatten_cons,
      List.filterMap_append, List.map_append]

/-- No result is shown twice, in whatever order the rows come. -/
theorem shownResults_nodup (rows : List PersistedSessionMessage) :
    (shownResults (restoreVisibleMessages lib rows)).Nodup := by
  unfold restoreVisibleMessages
  rw [restoreRows_eq, results_messagesWith (fitsRows_served _ rows)]
  apply List.Nodup.map_on
  · intro r hr r' hr' hblock
    have hmem : ∀ r, r ∈ (servedAnswers lib (collectToolResults lib rows) rows).flatten.filterMap id →
        r ∈ eventResults (eventsFrom lib 0 rows) := by
      intro r hr
      obtain ⟨answer, hanswer, rfl⟩ := List.mem_filterMap.mp hr
      exact mem_eventResults_of_served hanswer
    exact block_injOn (hmem r hr) (hmem r' hr') hblock
  · rw [servedAnswers_flatten]
    exact Fifo.serve_nodup (collectToolResults_distinct rows) _

/-! The numbers of a message are those of rows of its run. -/

theorem AnswersInTurn.drop {waiting : List Text} {run : Option Text} {before after : List Event}
    (h : AnswersInTurn waiting run (before ++ after)) :
    ∃ waiting' run', AnswersInTurn waiting' run' after := by
  induction before generalizing waiting run with
  | nil => exact ⟨waiting, run, h⟩
  | cons event before ih =>
    cases event with
    | call id runId shown => exact ih h.2.2
    | result result runId shown => exact ih h.2.2

/-- The own result of a call that waits is one of its run, by induction on the events. -/
theorem mem_of_ownResult {waiting : List Text} {run : Option Text} {events : List Event}
    (h : AnswersInTurn waiting run events) {id : Text} (hid : id ∈ waiting)
    {r : PersistedToolResult} (hown : ownResult id events = some r) :
    Event.result r run true ∈ events := by
  induction events generalizing waiting run with
  | nil => cases hown
  | cons event events ih =>
    cases event with
    | call id' runId shown =>
      obtain ⟨hrun, -, hrest⟩ := h
      have hstep := ih hrest (List.mem_cons_of_mem _ hid) hown
      rw [hrun (List.ne_nil_of_mem hid)] at hstep
      exact List.mem_cons_of_mem _ hstep
    | result result runId shown =>
      obtain ⟨rfl, -, hrest⟩ := h
      by_cases hsame : result.block.toolUseId = id
      · have hshown : (if shown then some result else none) = some r := by
          rw [← hown, ownResult, if_pos hsame]
        split_ifs at hshown with htrue
        obtain rfl := Option.some.inj hshown
        rw [htrue]
        exact List.mem_cons_self ..
      · rw [ownResult, if_neg hsame] at hown
        have hwaits := (List.mem_erase_of_ne (Ne.symm hsame)).mpr hid
        exact List.mem_cons_of_mem _ (ih hrest hwaits hown)

theorem row_of_event {place : ℕ} {rows : List PersistedSessionMessage} {r : PersistedToolResult}
    {runId : Option Text} {shown : Bool}
    (h : Event.result r runId shown ∈ eventsFrom lib place rows) :
    ∃ row ∈ rows, row.seq = r.seq ∧ row.runId = runId := by
  induction rows generalizing place with
  | nil => exact absurd h List.not_mem_nil
  | cons row rest ih =>
    rw [eventsFrom, List.mem_append, List.mem_append] at h
    rcases h with (h | h) | h
    · unfold callEvents at h
      split_ifs at h
      · obtain ⟨id, -, heq⟩ := List.mem_map.mp h
        cases heq
      · exact absurd h List.not_mem_nil
    · unfold resultEvents at h
      split at h
      · exact absurd h List.not_mem_nil
      · exact absurd h List.not_mem_nil
      · obtain ⟨block, -, heq⟩ := List.mem_map.mp h
        obtain ⟨rfl, rfl, -⟩ := Event.result.inj heq
        exact ⟨row, List.mem_cons_self .., rfl, rfl⟩
    · obtain ⟨row', hrow', hfields⟩ := ih h
      exact ⟨row', List.mem_cons_of_mem _ hrow', hfields⟩

/-- The own results of the calls of a row come from rows of its run. -/
theorem row_of_own {place : ℕ} {row : PersistedSessionMessage}
    {rest : List PersistedSessionMessage} {waiting : List Text} {run : Option Text}
    (hturn : AnswersInTurn waiting run (eventsFrom lib place (row :: rest))) {id : Text}
    (hid : id ∈ shownCalls lib row) {r : PersistedToolResult}
    (hown : ownResult id (resultEvents lib place row ++ eventsFrom lib (place + 1) rest) =
      some r) :
    ∃ row' ∈ row :: rest, row'.seq = r.seq ∧ row'.runId = row.runId := by
  unfold shownCalls at hid
  split_ifs at hid with hrole
  · rw [eventsFrom, List.append_assoc, callEvents, if_pos (visibleRole_eq_some hrole)] at hturn
    obtain ⟨ids, others, hids⟩ := List.append_of_mem hid
    rw [hids, List.map_append, List.map_cons, List.append_assoc, List.cons_append] at hturn
    obtain ⟨waiting', run', -, -, hafter⟩ := hturn.drop
    have hlater := mem_of_ownResult hafter (List.mem_cons_self ..)
      ((ownResult_calls id others row.runId _ _).trans hown)
    rcases List.mem_append.mp hlater with hcall | hevent
    · obtain ⟨id', -, heq⟩ := List.mem_map.mp hcall
      cases heq
    · apply @row_of_event _ place
      rw [eventsFrom, List.append_assoc]
      exact List.mem_append_right _ hevent
  · exact absurd hid List.not_mem_nil

theorem shownSeq_cases {seq : Option ℤ} {answers : List (Option PersistedToolResult)} {n : ℤ}
    (h : shownSeq seq answers = some n) :
    seq = some n ∨ ∃ r, some r ∈ answers ∧ r.seq = some n := by
  induction answers generalizing seq with
  | nil => exact Or.inl h
  | cons a answers ih =>
    have hstep : shownSeq (laterSeq seq (a.bind PersistedToolResult.seq)) answers = some n := h
    rcases ih hstep with hfirst | ⟨r, hr, hseq⟩
    · unfold laterSeq at hfirst
      cases ha : a.bind PersistedToolResult.seq with
      | none =>
        rw [ha] at hfirst
        exact Or.inl hfirst
      | some k =>
        rw [ha] at hfirst
        obtain ⟨r, rfl, hr⟩ := Option.bind_eq_some_iff.mp ha
        have hmax : max (seq.getD k) k = n := Option.some.inj hfirst
        rcases max_choice (seq.getD k) k with hleft | hright
        · cases seq with
          | none =>
            right
            use r
            simp_all
          | some s =>
            left
            rw [← hmax, hleft]
            rfl
        · right
          use r
          rw [← hmax, hright]
          exact ⟨List.mem_cons_self .., hr⟩
    · exact Or.inr ⟨r, List.mem_cons_of_mem _ hr, hseq⟩

/-- A message of a row is new, and its number is that of the row or of an answer. -/
theorem rowMessage_fields {row : PersistedSessionMessage}
    {answers : List (Option PersistedToolResult)} {m : Message}
    (h : rowMessage lib row answers = some m) :
    m.run = none ∧ m.sourceRunId = row.runId ∧ ∀ n, m.sourceSeq = some n →
      row.seq = some n ∨ ∃ r, some r ∈ answers ∧ r.seq = some n := by
  unfold rowMessage at h
  split at h
  · obtain ⟨-, hseq, hrun, hnew⟩ := restoreUserMessage_fields h
    exact ⟨hnew, hrun, fun n hn => Or.inl (hseq ▸ hn)⟩
  · obtain ⟨-, hseq, hrun, hnew⟩ := blocks_of_assistantMessage h
    constructor
    · exact hnew
    · constructor
      · exact hrun
      · intro n hn
        rw [hseq] at hn
        exact shownSeq_cases hn
  · cases h

theorem transcript_new {rows : List PersistedSessionMessage}
    {answers : List (List (Option PersistedToolResult))} {m : Message}
    (h : m ∈ messagesWith lib rows answers) : m.run = none := by
  induction rows generalizing answers with
  | nil => exact absurd h List.not_mem_nil
  | cons row rest ih =>
    cases answers with
    | nil => exact absurd h List.not_mem_nil
    | cons a answers =>
      rcases List.mem_append.mp h with h | h
      · exact (rowMessage_fields (Option.mem_toList.mp h)).1
      · exact ih h

/-- The number of a message is that of a row of its run, by induction on the rows. -/
theorem seq_of_transcript {place : ℕ} {rows : List PersistedSessionMessage} {waiting : List Text}
    {run : Option Text} (hturn : AnswersInTurn waiting run (eventsFrom lib place rows))
    {m : Message} (h : m ∈ messagesWith lib rows (ownAnswers lib place rows)) {n : ℤ}
    (hn : m.sourceSeq = some n) : ∃ row ∈ rows, row.seq = some n ∧ row.runId = m.sourceRunId := by
  induction rows generalizing place waiting run with
  | nil => exact absurd h List.not_mem_nil
  | cons row rest ih =>
    rcases List.mem_append.mp h with h | h
    · obtain ⟨-, hrun, hseq⟩ := rowMessage_fields (Option.mem_toList.mp h)
      rw [hrun]
      rcases hseq n hn with hseq | ⟨r, hr, hseq⟩
      · exact ⟨row, List.mem_cons_self .., hseq, rfl⟩
      · obtain ⟨id, hid, hown⟩ := List.mem_map.mp hr
        obtain ⟨row', hrow', hsame, hrunId⟩ := row_of_own hturn hid hown
        exact ⟨row', hrow', hsame.trans hseq, hrunId⟩
    · rw [eventsFrom] at hturn
      obtain ⟨waiting', run', hrest⟩ := hturn.drop
      obtain ⟨row', hrow', hfields⟩ := ih hrest h
      exact ⟨row', List.mem_cons_of_mem _ hrow', hfields⟩

/-! Sessions. -/

/-- What is stored of a session: its rows follow the tool protocol, and the rows in the range of a
run are of that run. -/
structure StoredSession (lib : BrowserLib) (rows : List PersistedSessionMessage)
    (runs : List SessionRun) : Prop where
  inTurn : AnswersInTurn [] none (eventsFrom lib 0 rows)
  disjoint : DisjointRanges runs
  ofRun : ∀ row ∈ rows, ∀ run ∈ runs, ∀ seq, row.seq = some seq → run.Covers seq →
    ∀ id, row.runId = some id → id = [] ∨ id = run.runId

/-- Every row that may be shown is shown once and in order, every call stands in front of its own
result, no result is shown twice, and every run is attached to the last message in its range. -/
def RestoresFaithfully (lib : BrowserLib) (rows : List PersistedSessionMessage)
    (runs : List SessionRun) : Prop :=
  restoreVisibleMessages lib rows = transcript lib rows ∧
    (shownResults (restoreVisibleMessages lib rows)).Nodup ∧
    AttachesEachRun runs (restoreVisibleMessages lib rows)
      (attachSessionRuns (restoreVisibleMessages lib rows) runs)

/-- Sessions are restored faithfully exactly when, under one run and id, a shown call without a
shown result is followed by no shown result, and a shown result of a hidden call by no shown
call. -/
theorem restoresFaithfully_iff {rows : List PersistedSessionMessage} {runs : List SessionRun}
    (hstored : StoredSession lib rows runs) :
    RestoresFaithfully lib rows runs ↔ Fifo.Aligned (exchanges (eventsFrom lib 0 rows)) := by
  rw [← restored_eq_transcript_iff hstored.inTurn]
  constructor
  · intro h
    exact h.1
  · intro h
    constructor
    · exact h
    · constructor
      · exact shownResults_nodup rows
      · rw [h]
        apply attachSessionRuns_attaches
        · intro m hm
          exact transcript_new hm
        · exact hstored.disjoint
        · rintro m hm run hrun ⟨seq, hseq, hcovers⟩ id hid
          obtain ⟨row, hrow, hrowSeq, hrowRun⟩ := seq_of_transcript hstored.inTurn hm hseq
          exact hstored.ofRun row hrow run hrun seq hrowSeq hcovers id (hrowRun.trans hid)

end

/-! Sessions in which an id is used again. -/

/-- Texts in lower case, without numbers. -/
def plainLib : BrowserLib := ⟨id, fun _ => none, fun _ => none, id⟩

def callRow (seq : ℤ) (runId : Text) : PersistedSessionMessage :=
  ⟨some seq, some runId, "assistant".toList, .array [.object
    [("type".toList, .string "tool_use".toList), ("id".toList, .string "call-1".toList),
      ("name".toList, .string "search".toList)]], false⟩

def resultRow (seq : ℤ) (runId text : Text) (notice : Bool) : PersistedSessionMessage :=
  ⟨some seq, some runId, "tool".toList, .object
    [("tool_call_id".toList, .string "call-1".toList), ("content".toList, .string text)], notice⟩

def twoRuns : List PersistedSessionMessage :=
  [callRow 1 "run-1".toList, resultRow 2 "run-1".toList "A".toList false,
    callRow 3 "run-2".toList, resultRow 4 "run-2".toList "B".toList false]

/-- The first result is hidden. -/
def hiddenResult : List PersistedSessionMessage :=
  [callRow 1 "run-1".toList, resultRow 2 "run-1".toList "A".toList true,
    callRow 3 "run-1".toList, resultRow 4 "run-1".toList "B".toList false]

theorem twoRuns_restored : RestoresFaithfully plainLib twoRuns
    [⟨"run-1".toList, 0, some 1, some 2⟩, ⟨"run-2".toList, 1, some 3, some 4⟩] := by
  apply (restoresFaithfully_iff _).mpr
  · decide +kernel
  · constructor
    · decide +kernel
    · simp [DisjointRanges, SessionRun.Covers]
      omega
    · simp [twoRuns, callRow, resultRow, SessionRun.Covers]

/-- The first call is shown with the result of the second. -/
theorem hiddenResult_shifts : StoredSession plainLib hiddenResult
      [⟨"run-1".toList, 0, some 1, some 4⟩] ∧
    ¬RestoresFaithfully plainLib hiddenResult [⟨"run-1".toList, 0, some 1, some 4⟩] := by
  have hturn : AnswersInTurn [] none (eventsFrom plainLib 0 hiddenResult) := by decide +kernel
  constructor
  · constructor
    · exact hturn
    · simp [DisjointRanges]
    · simp [hiddenResult, callRow, resultRow]
  · intro h
    have haligned := (restored_eq_transcript_iff hturn).mp h.1
    revert haligned
    decide +kernel

end DeepseekScience.Frontend
