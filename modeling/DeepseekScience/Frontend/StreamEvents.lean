import DeepseekScience.Frontend.EventStream
import DeepseekScience.Lib.Runs

/-! What a caller of the event stream sees: the events of the frames in their order up to the one
that ends the run, whatever way the bytes were cut, and calls behind an abort just where frames
were still due then. -/
namespace DeepseekScience.Frontend

open Blocks Utf8Stream Runs

section
/-! The times at which the abort function was called. -/

variable {caller : Caller} {log : List Act} {made : Call} {p : List Call} {s : Client}
  {outside : List Call → Prop}

@[simp] theorem callsOf_call : callsOf (log ++ [.call made]) = callsOf log ++ [made] := by
  simp [callsOf, Act.call?]

@[simp] theorem callsOf_abort : callsOf (log ++ [.abort]) = callsOf log := by
  simp [callsOf, Act.call?]

theorem callsOf_split (before after : List Act) :
    callsOf (before ++ .abort :: after) = callsOf before ++ callsOf after :=
  List.filterMap_append

/-- The abort function was called when these calls had been made. -/
def AbortedAt (log : List Act) (p : List Call) : Prop :=
  ∃ before after, log = before ++ .abort :: after ∧ p = callsOf before

@[simp] theorem abortedAt_nil : ¬ AbortedAt [] p := by
  simp [AbortedAt]

@[simp] theorem abortedAt_call : AbortedAt (log ++ [.call made]) p ↔ AbortedAt log p := by
  constructor
  · rintro ⟨before, after, hsplit, rfl⟩
    obtain ⟨-, -, habort⟩ | ⟨rest, -, hrest⟩ := concat_eq_split.mp hsplit
    · cases habort
    · exact ⟨before, rest, hrest, rfl⟩
  · rintro ⟨before, after, rfl, rfl⟩
    exact ⟨before, after ++ [.call made], by simp, rfl⟩

@[simp] theorem abortedAt_abort :
    AbortedAt (log ++ [.abort]) p ↔ AbortedAt log p ∨ p = callsOf log := by
  constructor
  · rintro ⟨before, after, hsplit, rfl⟩
    obtain ⟨-, rfl, -⟩ | ⟨rest, -, hrest⟩ := concat_eq_split.mp hsplit
    · exact Or.inr rfl
    · exact Or.inl ⟨before, rest, hrest, rfl⟩
  · rintro (⟨before, after, rfl, rfl⟩ | rfl)
    · exact ⟨before, after ++ [.abort], by simp, rfl⟩
    · exact ⟨log, [], rfl, rfl⟩

theorem aborted_iff : s.aborted = true ↔ ∃ p, AbortedAt s.log p := by
  rw [Client.aborted, List.any_eq_true]
  constructor
  · rintro ⟨act, hmem, habort⟩
    cases act with
    | call made => cases habort
    | abort =>
      obtain ⟨before, after, hsplit⟩ := List.append_of_mem hmem
      exact ⟨_, before, after, hsplit, rfl⟩
  · rintro ⟨_, before, after, hsplit, -⟩
    exact ⟨.abort, by simp [hsplit], rfl⟩

/-- Behind no call of the abort function there is a call of a handler. -/
def SilentAfterAbort (log : List Act) : Prop :=
  ∀ before after, log = before ++ .abort :: after → callsOf after = []

theorem silentAfterAbort_iff :
    SilentAfterAbort log ↔ ∀ p, AbortedAt log p → p = callsOf log := by
  constructor
  · rintro h _ ⟨before, after, rfl, rfl⟩
    rw [callsOf_split, h before after rfl, List.append_nil]
  · intro h before after hsplit
    have hall := h _ ⟨before, after, hsplit, rfl⟩
    rw [hsplit, callsOf_split] at hall
    exact List.self_eq_append_right.mp hall

/-- The abort function was called from outside at the times `outside`, and else by the handlers
that call it. -/
def Told (caller : Caller) (outside : List Call → Prop) (log : List Act) : Prop :=
  ∀ p, AbortedAt log p ↔
    outside p ∨ (p ≠ [] ∧ p <+: callsOf log ∧ caller.aborts p = true)

theorem Told.abort (h : Told caller outside log) :
    Told caller (fun p => outside p ∨ p = callsOf log) (log ++ [.abort]) := by
  intro p
  rw [abortedAt_abort, h p, callsOf_abort]
  tauto

theorem prefix_concat_iff {calls : List Call} :
    p <+: calls ++ [made] ↔ p = calls ++ [made] ∨ p <+: calls := by
  rw [List.prefix_concat_iff]

theorem Told.invoke (h : Told caller outside s.log) (made : Call) :
    Told caller outside (s.invoke caller made).log := by
  rw [Client.invoke]
  split_ifs with hprovides
  · intro p
    dsimp only
    have hp := h p
    split_ifs with haborts
    · rw [abortedAt_abort, abortedAt_call, hp, callsOf_abort, callsOf_call, prefix_concat_iff]
      rw [callsOf_call] at haborts
      constructor
      · rintro ((hout | ⟨hne, hprefix, hasks⟩) | rfl)
        · exact Or.inl hout
        · exact Or.inr ⟨hne, Or.inr hprefix, hasks⟩
        · exact Or.inr ⟨by simp, Or.inl rfl, haborts⟩
      · rintro (hout | ⟨hne, rfl | hprefix, hasks⟩)
        · exact Or.inl (Or.inl hout)
        · exact Or.inr rfl
        · exact Or.inl (Or.inr ⟨hne, hprefix, hasks⟩)
    · rw [abortedAt_call, hp, callsOf_call, prefix_concat_iff]
      rw [callsOf_call] at haborts
      constructor
      · rintro (hout | ⟨hne, hprefix, hasks⟩)
        · exact Or.inl hout
        · exact Or.inr ⟨hne, Or.inr hprefix, hasks⟩
      · rintro (hout | ⟨hne, rfl | hprefix, hasks⟩)
        · exact Or.inl hout
        · exact absurd hasks haborts
        · exact Or.inr ⟨hne, hprefix, hasks⟩
  · exact h

end

section
/-! The frames of a body. -/

variable {lib : StreamLib} {caller : Caller}

/-- A line of JSON with an event, as the server frames it. -/
structure Frame (lib : StreamLib) where
  text : Text
  event : Json
  oneLine : '\n' ∉ text
  visible : trimJs text ≠ []
  reads : lib.parseJson (trimJs text) = some event
  isEvent : event ≠ .null

def Frame.line (f : Frame lib) : Text := "data: ".toList ++ f.text

def Frame.bytes (f : Frame lib) : List UInt8 := encode (f.line ++ ['\n', '\n'])

def body (frames : List (Frame lib)) : List UInt8 := frames.flatMap Frame.bytes

/-- The frames that are complete in the first `n` bytes of the body. -/
def arrived : List (Frame lib) → ℕ → List (Frame lib)
  | [], _ => []
  | f :: frames, n =>
    if f.bytes.length ≤ n then f :: arrived frames (n - f.bytes.length) else []

/-- The events up to the first one that ends the run. -/
def upToTerminal : List Json → List Json
  | [] => []
  | ev :: events => if isTerminal ev then [ev] else ev :: upToTerminal events

def ends (frames : List (Frame lib)) : Bool := frames.any fun f => isTerminal f.event

/-- The call that an event makes, where the caller provides the handler. -/
def eventCalls (caller : Caller) (ev : Json) : List Call :=
  (dispatchEvent ev).toList.filter fun made => caller.provides made.handler

/-- The calls that frames ask for. -/
def due (caller : Caller) (frames : List (Frame lib)) : List Call :=
  (upToTerminal (frames.map Frame.event)).flatMap (eventCalls caller)

theorem newline_notMem_line (f : Frame lib) : '\n' ∉ f.line := by
  rw [Frame.line, List.mem_append]
  rintro (h | h)
  · simp at h
  · exact f.oneLine h

theorem trimJs_space (t : Text) : trimJs (' ' :: t) = trimJs t := by
  rw [trimJs, List.dropWhile_cons_of_pos (by decide), trimJs]

theorem readLine_line (f : Frame lib) : readLine lib f.line = .event f.event := by
  have hprefix : "data:".toList.isPrefixOf f.line = true := rfl
  have hdrop : f.line.drop 5 = ' ' :: f.text := rfl
  have hvisible : (trimJs f.text).isEmpty = false := by simp [f.visible]
  rw [readLine, hprefix, hdrop]
  simp only [trimJs_space, hvisible, f.reads, Bool.not_true, Bool.false_eq_true, if_false]
  cases hevent : f.event with
  | null => exact absurd hevent f.isEvent
  | _ => rfl

theorem due_append {before : List (Frame lib)} (h : ends before = false) (f : Frame lib) :
    due caller (before ++ [f]) = due caller before ++ eventCalls caller f.event := by
  induction before with
  | nil =>
    rw [due, due]
    cases hf : isTerminal f.event <;> simp [upToTerminal, hf]
  | cons g before ih =>
    rw [ends, List.any_cons, Bool.or_eq_false_iff] at h
    have hnext := ih h.2
    rw [due, due] at hnext ⊢
    simp only [List.cons_append, List.map_cons, upToTerminal, h.1, Bool.false_eq_true, if_false,
      List.flatMap_cons, hnext, List.append_assoc]

theorem due_of_ends {before : List (Frame lib)} (h : ends before = true)
    (after : List (Frame lib)) : due caller (before ++ after) = due caller before := by
  induction before with
  | nil => cases h
  | cons g before ih =>
    cases hg : isTerminal g.event with
    | true => simp [due, upToTerminal, hg]
    | false =>
      have hnext := ih (by simpa [ends, hg] using h)
      rw [due, due] at hnext ⊢
      simp only [List.cons_append, List.map_cons, upToTerminal, hg, Bool.false_eq_true, if_false,
        List.flatMap_cons, hnext]

end

section
/-! The reader over frames that are complete. -/

variable {lib : StreamLib} {caller : Caller} {s : Client} {outside : List Call → Prop}
  {before : List (Frame lib)}

/-- What is seen of the frames so far. -/
structure Seen (caller : Caller) (outside : List Call → Prop) (frames : List (Frame lib))
    (s : Client) : Prop where
  calls : callsOf s.log = due caller frames
  finished : s.finished = ends frames
  told : Told caller outside s.log

theorem invoke_calls (made : Call) : callsOf (s.invoke caller made).log =
    callsOf s.log ++ [made].filter fun made => caller.provides made.handler := by
  rw [Client.invoke]
  split_ifs with hprovides
  · have hmade : [made].filter (fun made => caller.provides made.handler) = [made] := by
      simp [hprovides]
    dsimp only
    split_ifs <;> simp only [callsOf_abort, callsOf_call, hmade]
  · simp [hprovides]

theorem dispatch_calls (ev : Json) :
    callsOf (s.dispatch caller ev).log = callsOf s.log ++ eventCalls caller ev := by
  rw [Client.dispatch, eventCalls]
  cases dispatchEvent ev with
  | none => simp
  | some made => exact invoke_calls made

theorem Told.dispatch (h : Told caller outside s.log) (ev : Json) :
    Told caller outside (s.dispatch caller ev).log := by
  rw [Client.dispatch]
  cases dispatchEvent ev with
  | none => exact h
  | some made => exact h.invoke made

theorem invoke_finished (made : Call) : (s.invoke caller made).finished = s.finished := by
  rw [Client.invoke]
  split_ifs <;> rfl

theorem dispatch_finished (ev : Json) : (s.dispatch caller ev).finished = s.finished := by
  rw [Client.dispatch]
  cases dispatchEvent ev with
  | none => rfl
  | some made => exact invoke_finished made

theorem ends_append (frames after : List (Frame lib)) :
    ends (frames ++ after) = (ends frames || ends after) := List.any_append

theorem Seen.readLine (h : Seen caller outside before s) (hopen : s.finished = false)
    (f : Frame lib) : Seen caller outside (before ++ [f]) (s.readLines lib caller [f.line]) := by
  have hends : ends before = false := h.finished ▸ hopen
  have hcalls : callsOf (s.dispatch caller f.event).log = due caller (before ++ [f]) := by
    rw [dispatch_calls, h.calls, due_append hends]
  have htold := h.told.dispatch f.event
  have hlast : ends (before ++ [f]) = isTerminal f.event := by
    rw [ends_append, hends]
    simp [ends]
  rw [Client.readLines, readLine_line]
  dsimp only
  split_ifs with hterminal
  · constructor
    · exact hcalls
    · rw [hlast, hterminal]
      rfl
    · exact htold
  · constructor
    · exact hcalls
    · rw [Client.readLines, dispatch_finished, hopen, hlast]
      simpa using hterminal
    · exact htold

theorem takeBlock_line (f : Frame lib) (rest : Text) :
    takeBlock '\n' (f.line ++ '\n' :: '\n' :: rest) = some (f.line, rest) :=
  takeBlock_block (newline_notMem_line f) rest

theorem readFrames_of_finished (h : s.finished = true) : s.readFrames lib caller = s := by
  rw [Client.readFrames, if_pos h]

theorem readFrames_of_none (h : takeBlock '\n' s.buf = none) : s.readFrames lib caller = s := by
  rw [Client.readFrames]
  split_ifs with hfinished
  · rfl
  · split
    · rfl
    · rename_i hsome
      rw [h] at hsome
      cases hsome

theorem readFrames_of_some {frame rest : Text} (hopen : s.finished = false)
    (h : takeBlock '\n' s.buf = some (frame, rest)) :
    s.readFrames lib caller =
      ({ s with buf := rest }.readLines lib caller (frame.splitOn '\n')).readFrames lib caller := by
  rw [Client.readFrames, hopen]
  simp only [Bool.false_eq_true, if_false]
  split
  · rename_i hnone
    rw [h] at hnone
    cases hnone
  · rename_i hsome
    rw [h, Option.some.injEq, Prod.mk.injEq] at hsome
    obtain ⟨rfl, rfl⟩ := hsome
    rfl

/-- The loop over the frames in the buffer sees all of them, and leaves what is behind them. -/
theorem Seen.readFrames {frames : List (Frame lib)} (h : Seen caller outside before s)
    (hopen : s.finished = false) (hframes : (blocks '\n' s.buf).1 = frames.map Frame.line) :
    Seen caller outside (before ++ frames) (s.readFrames lib caller) ∧
      ((s.readFrames lib caller).finished = false → (s.readFrames lib caller).kept =
        (s.decoder, s.bomSeen, (blocks '\n' s.buf).2)) := by
  induction frames generalizing s before with
  | nil =>
    cases htake : takeBlock '\n' s.buf with
    | some read =>
      obtain ⟨frame, rest⟩ := read
      rw [blocks_of_some htake] at hframes
      cases hframes
    | none =>
      rw [readFrames_of_none htake, List.append_nil, blocks_of_none htake]
      exact ⟨h, fun _ => rfl⟩
  | cons f frames ih =>
    cases htake : takeBlock '\n' s.buf with
    | none =>
      rw [blocks_of_none htake] at hframes
      cases hframes
    | some read =>
      obtain ⟨frame, rest⟩ := read
      rw [blocks_of_some htake] at hframes ⊢
      obtain ⟨rfl, hrest⟩ := List.cons.inj hframes
      rw [readFrames_of_some hopen htake, List.splitOn_eq_singleton (newline_notMem_line f)]
      have hs : Seen caller outside before { s with buf := rest } := ⟨h.calls, h.finished, h.told⟩
      have hnext : Seen caller outside (before ++ [f])
          ({ s with buf := rest }.readLines lib caller [f.line]) := hs.readLine hopen f
      have hkept : ({ s with buf := rest }.readLines lib caller [f.line]).kept =
          (s.decoder, s.bomSeen, rest) := readLines_kept lib caller [f.line]
      generalize { s with buf := rest }.readLines lib caller [f.line] = s' at hnext hkept
      have hbuf : s'.buf = rest := congrArg (fun kept => kept.2.2) hkept
      have hdecoder : s'.decoder = s.decoder := congrArg (fun kept => kept.1) hkept
      have hbom : s'.bomSeen = s.bomSeen := congrArg (fun kept => kept.2.1) hkept
      cases hfinished : s'.finished with
      | true =>
        rw [readFrames_of_finished hfinished]
        have hends : ends (before ++ [f]) = true := hnext.finished ▸ hfinished
        have hall : before ++ f :: frames = (before ++ [f]) ++ frames := by simp
        constructor
        · constructor
          · rw [hall, due_of_ends hends, hnext.calls]
          · rw [hall, ends_append, hends, hfinished]
            rfl
          · exact hnext.told
        · intro hopen'
          rw [hfinished] at hopen'
          cases hopen'
      | false =>
        have hlater := ih hnext hfinished (by rw [hbuf]; exact hrest)
        rw [List.append_assoc, List.singleton_append, hdecoder, hbom, hbuf] at hlater
        exact hlater

end

section
/-! The bytes that come in. -/

variable {lib : StreamLib} {caller : Caller} {frames : List (Frame lib)} {bytes : List UInt8}

/-- The frames, and what is left behind them, when these bytes came in at once. -/
def read (bytes : List UInt8) : List Text × Text := blocks '\n' (feeds {} bytes).2

theorem encode_newline (t : Text) : encode (t ++ ['\n']) = encode t ++ [0x0A] := by
  rw [encode_append]
  rfl

theorem Frame.bytes_eq (f : Frame lib) : f.bytes = encode (f.line ++ ['\n']) ++ [0x0A] := by
  rw [Frame.bytes, ← encode_newline, List.append_assoc]
  rfl

/-- A front of a frame that lacks its last byte has no blank line. -/
theorem read_cut {rest : List UInt8} {f : Frame lib} (hrest : rest ≠ [])
    (h : bytes ++ rest = f.bytes) : (read bytes).1 = [] := by
  have hcut := feeds_prefix h
  have hmore : (feeds (feeds {} bytes).1 rest).2 ≠ [] := by
    rw [f.bytes_eq] at h
    obtain hnil | ⟨init, last, rfl⟩ := rest.eq_nil_or_concat
    · exact absurd hnil hrest
    · rw [List.concat_eq_append] at h ⊢
      rw [← List.append_assoc] at h
      obtain ⟨-, hlast⟩ := List.append_inj' h rfl
      cases hlast
      have hlower : 0x80 ≤ (feeds (feeds {} bytes).1 init).1.lower :=
        feeds_lower (feeds_lower (by decide))
      rw [feeds_append]
      intro hnone
      have hout := (List.append_eq_nil_iff.mp hnone).2
      rw [feeds, feeds_nil] at hout
      exact feed_ascii (by decide) hlower (List.append_eq_nil_iff.mp hout).1
  have hnone : takeBlock '\n' (feeds {} bytes).2 = none :=
    takeBlock_front (newline_notMem_line f) hcut hmore
  rw [read, blocks_of_none hnone]

/-- Of any front of a body, the frames that are complete in it are read. -/
theorem read_arrived (h : bytes <+: body frames) :
    (read bytes).1 = (arrived frames bytes.length).map Frame.line := by
  induction frames generalizing bytes with
  | nil =>
    have hnone : takeBlock '\n' (feeds {} []).2 = none := rfl
    rw [List.prefix_nil.mp h, read, blocks_of_none hnone]
    rfl
  | cons f frames ih =>
    rw [body, List.flatMap_cons] at h
    rw [arrived]
    split_ifs with hlength
    · obtain ⟨later, rfl⟩ := List.prefix_of_prefix_length_le (List.prefix_append _ _) h hlength
      rw [List.prefix_append_right_inj] at h
      have hall : (feeds {} (f.bytes ++ later)).2 =
          f.line ++ '\n' :: '\n' :: (feeds {} later).2 := by
        rw [Frame.bytes, feeds_encode_append]
        simp
      rw [read, hall, blocks_block (newline_notMem_line f), List.length_append,
        Nat.add_sub_cancel_left, List.map_cons, ← ih h, read]
    · obtain ⟨rest, hrest⟩ := List.prefix_of_prefix_length_le h (List.prefix_append _ _) (by omega)
      refine read_cut ?_ hrest
      rintro rfl
      rw [← hrest, List.append_nil] at hlength
      exact hlength le_rfl

theorem body_eq (frames : List (Frame lib)) :
    body frames = encode (frames.flatMap fun f => f.line ++ ['\n', '\n']) := by
  rw [body, encode, List.flatMap_assoc]
  rfl

/-- No front of a body begins with a byte order mark. -/
theorem dropBom_arrived (h : bytes <+: body frames) :
    dropBom false (feeds {} bytes).2 = (feeds {} bytes).2 := by
  obtain ⟨later, hlater⟩ := h
  rw [body_eq] at hlater
  have hfront := feeds_prefix hlater
  cases hchars : (feeds {} bytes).2 with
  | nil => rfl
  | cons c chars =>
    rw [hchars] at hfront
    cases frames with
    | nil => simp at hfront
    | cons f frames =>
      have hc : c = 'd' := (List.cons.inj hfront).1
      rw [hc]
      rfl

theorem arrived_append (frames : List (Frame lib)) {n m : ℕ} (h : n ≤ m) :
    ∃ later, arrived frames m = arrived frames n ++ later := by
  induction frames generalizing n m with
  | nil => exact ⟨[], rfl⟩
  | cons f frames ih =>
    rw [arrived, arrived]
    split_ifs with hm hn
    · obtain ⟨later, hlater⟩ := ih (n := n - f.bytes.length) (m := m - f.bytes.length) (by omega)
      exact ⟨later, by rw [hlater, List.cons_append]⟩
    · exact ⟨_, rfl⟩
    · omega
    · exact ⟨[], rfl⟩

/-- A whole body has all of its frames. -/
theorem arrived_body (frames : List (Frame lib)) :
    arrived frames (body frames).length = frames := by
  induction frames with
  | nil => rfl
  | cons f frames ih =>
    rw [body, List.flatMap_cons, arrived, List.length_append, if_pos (by omega),
      Nat.add_sub_cancel_left]
    exact congrArg (f :: ·) ih

/-- The state behind a front of the body. -/
structure Reads (caller : Caller) (outside : List Call → Prop) (frames : List (Frame lib))
    (bytes : List UInt8) (s : Client) : Prop where
  seen : Seen caller outside (arrived frames bytes.length) s
  kept : s.finished = false →
    s.kept = ((feeds {} bytes).1, !(feeds {} bytes).2.isEmpty, (read bytes).2)

variable {outside : List Call → Prop} {s : Client}

theorem Reads.receive {chunk : List UInt8} (h : Reads caller outside frames bytes s)
    (hbody : bytes ++ chunk <+: body frames) :
    Reads caller outside frames (bytes ++ chunk) (s.receive lib caller chunk) := by
  obtain ⟨later, hlater⟩ := arrived_append frames (n := bytes.length)
    (m := (bytes ++ chunk).length) (by simp)
  rw [Client.receive]
  split_ifs with hfinished
  · have hends : ends (arrived frames bytes.length) = true := h.seen.finished ▸ hfinished
    constructor
    · rw [hlater]
      constructor
      · rw [due_of_ends hends, h.seen.calls]
      · rw [ends_append, hends, hfinished]
        rfl
      · exact h.seen.told
    · intro hopen
      rw [hfinished] at hopen
      cases hopen
  · rw [Bool.not_eq_true] at hfinished
    obtain ⟨hdecoder, hrest⟩ := Prod.mk.inj (h.kept hfinished)
    obtain ⟨hbom, hbuf⟩ := Prod.mk.inj hrest
    have hall := feeds_append {} bytes chunk
    have hdrop : dropBom s.bomSeen (feeds s.decoder chunk).2 = (feeds s.decoder chunk).2 := by
      have hnobom := dropBom_arrived hbody
      rw [hall] at hnobom
      rw [hdecoder, hbom]
      cases hchars : (feeds {} bytes).2 with
      | nil => simpa [hchars] using hnobom
      | cons c chars => rfl
    have hread : read (bytes ++ chunk) = ((read bytes).1 ++
        (blocks '\n' (s.buf ++ (feeds s.decoder chunk).2)).1,
        (blocks '\n' (s.buf ++ (feeds s.decoder chunk).2)).2) := by
      rw [read, hall, blocks_append, hdecoder, hbuf]
      rfl
    have hframes : (blocks '\n' (s.buf ++ (feeds s.decoder chunk).2)).1 =
        later.map Frame.line := by
      have harrived := read_arrived hbody
      rw [hread, hlater, List.map_append, read_arrived ((List.prefix_append _ _).trans hbody)]
        at harrived
      exact List.append_cancel_left harrived
    dsimp only
    rw [hdrop]
    have hs : Seen caller outside (arrived frames bytes.length)
        { s with decoder := (feeds s.decoder chunk).1
                 bomSeen := s.bomSeen || !(feeds s.decoder chunk).2.isEmpty
                 buf := s.buf ++ (feeds s.decoder chunk).2 } :=
      ⟨h.seen.calls, h.seen.finished, h.seen.told⟩
    obtain ⟨hseen, hkept⟩ := hs.readFrames hfinished hframes
    constructor
    · rw [hlater]
      exact hseen
    · intro hopen
      rw [hkept hopen, hread, hall, hdecoder, hbom]
      cases (feeds {} bytes).2 <;> simp

theorem Reads.abort (h : Reads caller outside frames bytes s) :
    Reads caller (fun p => outside p ∨ p = due caller (arrived frames bytes.length)) frames bytes
      s.abort := by
  constructor
  · constructor
    · rw [Client.abort, callsOf_abort, h.seen.calls]
    · exact h.seen.finished
    · rw [← h.seen.calls]
      exact h.seen.told.abort
  · exact h.kept

end

section
/-! Whole connections. -/

variable {lib : StreamLib} {caller : Caller} {frames : List (Frame lib)}

def Input.bytes : Input → List UInt8
  | .abort => []
  | .chunk bytes => bytes

/-- The bytes that came in, whatever way they were cut. -/
def bytesOf (inputs : List Input) : List UInt8 := inputs.flatMap Input.bytes

/-- The frames that came in. -/
def framesIn (frames : List (Frame lib)) (inputs : List Input) : List (Frame lib) :=
  arrived frames (bytesOf inputs).length

/-- The abort function was called from outside when these calls were due. -/
def Outside (caller : Caller) (frames : List (Frame lib)) (early : Bool) (inputs : List Input)
    (p : List Call) : Prop :=
  (early = true ∧ p = []) ∨
    ∃ before after, inputs = before ++ .abort :: after ∧ p = due caller (framesIn frames before)

theorem outside_abort {early : Bool} {inputs : List Input} {p : List Call} :
    Outside caller frames early (inputs ++ [.abort]) p ↔
      Outside caller frames early inputs p ∨ p = due caller (framesIn frames inputs) := by
  constructor
  · rintro (hearly | ⟨before, after, hsplit, rfl⟩)
    · exact Or.inl (Or.inl hearly)
    · obtain ⟨-, rfl, -⟩ | ⟨rest, -, hrest⟩ := concat_eq_split.mp hsplit
      · exact Or.inr rfl
      · exact Or.inl (Or.inr ⟨before, rest, hrest, rfl⟩)
  · rintro ((hearly | ⟨before, after, rfl, rfl⟩) | rfl)
    · exact Or.inl hearly
    · exact Or.inr ⟨before, after ++ [.abort], by simp, rfl⟩
    · exact Or.inr ⟨inputs, [], rfl, rfl⟩

theorem outside_chunk {early : Bool} {inputs : List Input} {chunk : List UInt8} {p : List Call} :
    Outside caller frames early (inputs ++ [.chunk chunk]) p ↔
      Outside caller frames early inputs p := by
  constructor
  · rintro (hearly | ⟨before, after, hsplit, rfl⟩)
    · exact Or.inl hearly
    · obtain ⟨-, -, hchunk⟩ | ⟨rest, -, hrest⟩ := concat_eq_split.mp hsplit
      · cases hchunk
      · exact Or.inr ⟨before, rest, hrest, rfl⟩
  · rintro (hearly | ⟨before, after, rfl, rfl⟩)
    · exact Or.inl hearly
    · exact Or.inr ⟨before, after ++ [.chunk chunk], by simp, rfl⟩

theorem Told.congr {outside outside' : List Call → Prop} {log : List Act}
    (h : Told caller outside log) (hiff : ∀ p, outside p ↔ outside' p) :
    Told caller outside' log := by
  intro p
  rw [h p, hiff p]

theorem Reads.congr {outside outside' : List Call → Prop} {bytes : List UInt8} {s : Client}
    (h : Reads caller outside frames bytes s) (hiff : ∀ p, outside p ↔ outside' p) :
    Reads caller outside' frames bytes s :=
  ⟨⟨h.seen.calls, h.seen.finished, h.seen.told.congr hiff⟩, h.kept⟩

theorem opening_told (early : Bool) :
    Told caller (fun p => early = true ∧ p = []) (Client.opening early).log := by
  intro p
  cases early with
  | false =>
    simp only [Client.opening, Bool.false_eq_true, if_false, abortedAt_nil, false_and, false_or,
      false_iff, not_and, callsOf, List.filterMap_nil, List.prefix_nil]
    exact fun hne hnil => absurd hnil hne
  | true =>
    have hlog : (Client.opening true).log = [] ++ [.abort] := rfl
    rw [hlog, abortedAt_abort, callsOf_abort]
    simp only [abortedAt_nil, false_or, true_and, callsOf, List.filterMap_nil, List.prefix_nil]
    tauto

theorem bytesOf_append (inputs : List Input) (input : Input) :
    bytesOf (inputs ++ [input]) = bytesOf inputs ++ input.bytes := by
  simp [bytesOf]

/-- Behind any inputs the reader has seen the frames that came in. -/
theorem reading_reads (caller : Caller) (early : Bool) {inputs : List Input}
    (h : bytesOf inputs <+: body frames) :
    Reads caller (Outside caller frames early inputs) frames (bytesOf inputs)
      (reading lib caller early inputs) := by
  induction inputs using List.reverseRecOn with
  | nil =>
    have hnothing : arrived frames 0 = [] := by
      cases frames with
      | nil => rfl
      | cons f frames =>
        have hpos : f.bytes.length ≠ 0 := by simp [f.bytes_eq]
        rw [arrived, if_neg (by omega)]
    have hread : read [] = ([], []) := blocks_of_none rfl
    constructor
    · rw [bytesOf, List.flatMap_nil, List.length_nil, hnothing]
      constructor
      · cases early <;> rfl
      · rfl
      · refine (opening_told early).congr fun p => ?_
        simp [Outside]
    · intro _
      rw [bytesOf, List.flatMap_nil, hread]
      rfl
  | append_singleton inputs input ih =>
    rw [bytesOf_append] at h ⊢
    have hbefore := ih ((List.prefix_append _ _).trans h)
    rw [reading, List.foldl_append]
    cases input with
    | abort =>
      rw [Input.bytes, List.append_nil]
      exact hbefore.abort.congr fun p => outside_abort.symm
    | chunk chunk =>
      exact (hbefore.receive h).congr fun p => outside_chunk.symm

/-- What the caller should see: the calls that are due, and one report of an error where the run
has not ended with an event. -/
def provided (caller : Caller) (made : Call) : List Call :=
  [made].filter fun made => caller.provides made.handler

def expectedCalls (caller : Caller) (frames : List (Frame lib)) (x : Exchange) : List Call :=
  match x.response with
  | .failed message => provided caller (transportError message)
  | .refused status statusText =>
    provided caller (transportError (refusal status statusText))
  | .opened =>
    due caller (framesIn frames x.inputs) ++
      if ends (framesIn frames x.inputs) then []
      else
        match x.ending with
        | none => []
        | some .done => provided caller (transportError endedEarly)
        | some (.failed message) => provided caller (transportError message)

/-- The caller sees what it should, in this order, and nothing behind an abort. -/
structure ReadsOnce (expected : List Call) (log : List Act) : Prop where
  silent : SilentAfterAbort log
  order : callsOf log <+: expected
  complete : (∀ p, ¬ AbortedAt log p) → callsOf log = expected

/-- Wherever the abort function is called, no further call is due. -/
def LateOnly (caller : Caller) (outside : List Call → Prop) (calls : List Call) : Prop :=
  (∀ p, outside p → p = calls) ∧
    ∀ p, p ≠ [] → p <+: calls → p ≠ calls → caller.aborts p = false

def AbortsLate (caller : Caller) (frames : List (Frame lib)) (x : Exchange) : Prop :=
  match x.response with
  | .failed _ => True
  | .refused _ _ => x.early = true → caller.provides .onError = false
  | .opened => LateOnly caller (Outside caller frames x.early x.inputs)
      (due caller (framesIn frames x.inputs))

variable {outside : List Call → Prop} {log : List Act} {s : Client}

theorem Told.silent_iff (h : Told caller outside log) :
    SilentAfterAbort log ↔ LateOnly caller outside (callsOf log) := by
  rw [silentAfterAbort_iff]
  constructor
  · intro hsilent
    constructor
    · intro p hout
      exact hsilent p ((h p).mpr (Or.inl hout))
    · intro p hne hprefix hlate
      by_contra haborts
      rw [Bool.not_eq_false] at haborts
      exact hlate (hsilent p ((h p).mpr (Or.inr ⟨hne, hprefix, haborts⟩)))
  · rintro ⟨hout, hinside⟩ p hp
    obtain hout' | ⟨hne, hprefix, haborts⟩ := (h p).mp hp
    · exact hout p hout'
    · by_contra hlate
      rw [hinside p hne hprefix hlate] at haborts
      cases haborts

theorem Told.lateOnly (h : Told caller outside log) (hnone : ∀ p, ¬ AbortedAt log p)
    (calls : List Call) (hcalls : callsOf log = calls) : LateOnly caller outside calls := by
  rw [← hcalls]
  exact h.silent_iff.mp (silentAfterAbort_iff.mpr fun p hp => absurd hp (hnone p))

theorem Told.readsOnce_iff (h : Told caller outside log) {expected : List Call}
    (hexpected : callsOf log = expected) :
    ReadsOnce expected log ↔ LateOnly caller outside expected := by
  rw [← hexpected]
  constructor
  · intro honce
    exact h.silent_iff.mp honce.silent
  · intro hlate
    exact ⟨h.silent_iff.mpr hlate, List.prefix_refl _, fun _ => rfl⟩

/-- A last call of a caller that has not aborted. -/
theorem invoke_readsOnce (hnone : ∀ p, ¬ AbortedAt s.log p) (made : Call) :
    ReadsOnce (callsOf s.log ++ provided caller made) (s.invoke caller made).log := by
  have hcalls : callsOf (s.invoke caller made).log = callsOf s.log ++ provided caller made :=
    invoke_calls made
  constructor
  · rw [silentAfterAbort_iff]
    rw [Client.invoke]
    split_ifs
    · dsimp only
      intro p
      split_ifs
      · rw [abortedAt_abort, abortedAt_call, callsOf_abort]
        rintro (hp | rfl)
        · exact absurd hp (hnone p)
        · rfl
      · rw [abortedAt_call]
        exact fun hp => absurd hp (hnone p)
    · exact fun p hp => absurd hp (hnone p)
  · rw [hcalls]
  · exact fun _ => hcalls

/-- An exception ends the connection with one report, unless the caller has aborted. -/
theorem Told.caught_iff (h : Told caller outside s.log) (message : Text) :
    ReadsOnce (callsOf s.log ++ provided caller (transportError message))
        (s.caught caller message).log ↔ LateOnly caller outside (callsOf s.log) := by
  rw [Client.caught]
  split_ifs with haborted
  · obtain ⟨p, hp⟩ := aborted_iff.mp haborted
    constructor
    · intro honce
      exact h.silent_iff.mp honce.silent
    · intro hlate
      exact ⟨h.silent_iff.mpr hlate, List.prefix_append _ _, fun hnone => absurd hp (hnone p)⟩
  · have hnone : ∀ p, ¬ AbortedAt s.log p := fun p hp => haborted (aborted_iff.mpr ⟨p, hp⟩)
    constructor
    · intro _
      exact h.lateOnly hnone _ rfl
    · intro _
      exact invoke_readsOnce hnone _

/-- A connection to a body of frames shows its caller what it should just when no handler is due
any more wherever the caller aborts. -/
theorem connectSSE_readsOnce_iff (lib : StreamLib) (caller : Caller) (frames : List (Frame lib))
    (x : Exchange) (h : bytesOf x.inputs <+: body frames) :
    ReadsOnce (expectedCalls caller frames x) (connectSSE lib caller x) ↔
      AbortsLate caller frames x := by
  have hopening : Told caller (fun p => x.early = true ∧ p = []) (Client.opening x.early).log :=
    opening_told x.early
  have hnocalls : callsOf (Client.opening x.early).log = [] := by cases x.early <;> rfl
  rw [connectSSE, expectedCalls, AbortsLate]
  cases x.response with
  | failed message =>
    have hcaught := hopening.caught_iff message
    rw [hnocalls, List.nil_append] at hcaught
    rw [hcaught, LateOnly]
    simp +contextual
  | refused status statusText =>
    dsimp only
    generalize refusal status statusText = message
    cases hearly : x.early with
    | false =>
      have honce := @invoke_readsOnce caller (Client.opening false) (fun p => abortedAt_nil)
        (transportError message)
      constructor
      · intro _ htrue
        cases htrue
      · intro _
        exact honce
    | true =>
      constructor
      · intro honce _
        by_contra hprovides
        rw [Bool.not_eq_false] at hprovides
        have hafter := silentAfterAbort_iff.mp honce.silent
        have htold := (hearly ▸ hopening).invoke (transportError message)
        have hnone := hafter [] ((htold []).mpr (Or.inl ⟨rfl, rfl⟩))
        rw [invoke_calls] at hnone
        simp [transportError, hprovides] at hnone
      · intro hprovides
        have hnot := hprovides rfl
        rw [Client.invoke, if_neg (by simp [transportError, hnot])]
        rw [hearly] at hopening hnocalls
        refine (hopening.readsOnce_iff ?_).mpr ?_
        · simp [hnocalls, provided, transportError, hnot]
        · simp +contextual [LateOnly, provided, transportError, hnot]
  | opened =>
    obtain ⟨hcalls, hfinished, htold⟩ := (reading_reads caller x.early h).seen
    rw [← framesIn] at hcalls hfinished
    dsimp only
    generalize reading lib caller x.early x.inputs = s at hcalls hfinished htold
    cases hends : ends (framesIn frames x.inputs) with
    | true =>
      have hclose : ∀ e, s.close caller e = s := by
        intro e
        cases e <;> exact if_pos (hfinished.trans hends)
      rw [if_pos rfl, List.append_nil]
      cases x.ending with
      | none => exact htold.readsOnce_iff hcalls
      | some e =>
        rw [Option.elim_some, hclose e]
        exact htold.readsOnce_iff hcalls
    | false =>
      have hopen : ¬ s.finished = true := by simp [hfinished, hends]
      rw [if_neg (by simp), ← hcalls]
      cases x.ending with
      | none =>
        rw [List.append_nil]
        exact htold.readsOnce_iff rfl
      | some e =>
        cases e with
        | done =>
          have hclose : s.close caller .done = s.caught caller endedEarly := if_neg hopen
          rw [Option.elim_some, hclose]
          exact htold.caught_iff endedEarly
        | failed message =>
          have hclose : s.close caller (.failed message) = s.caught caller message := if_neg hopen
          rw [Option.elim_some, hclose]
          exact htold.caught_iff message

/-! A sample: two texts in one chunk, for a caller that aborts at its first call. -/

def textJson : Text := "\x7b\"type\":\"text\",\"text\":\"a\"\x7d".toList

def textEvent : Json :=
  .object [("type".toList, .string "text".toList), ("text".toList, .string "a".toList)]

def sampleStreamLib : StreamLib where
  parseJson t := if t = textJson then some textEvent else none
  nullError := "Cannot read properties of null (reading 'type')".toList

def textFrame : Frame sampleStreamLib where
  text := textJson
  event := textEvent
  oneLine := by decide +kernel
  visible := by decide +kernel
  reads := by
    have htrim : trimJs textJson = textJson := by decide +kernel
    rw [htrim]
    show (if textJson = textJson then some textEvent else none) = some textEvent
    rw [if_pos rfl]
  isEvent := by simp [textEvent]

def stopsAtOnce : Caller where
  provides _ := true
  aborts calls := calls.length == 1

def oneChunk : Exchange where
  response := .opened
  early := false
  inputs := [.chunk (body [textFrame, textFrame])]
  ending := none

/-- The main theorem where two frames are there when the first one is handled. -/
theorem connectSSE_readsOnce_oneChunk :
    ReadsOnce (expectedCalls stopsAtOnce [textFrame, textFrame] oneChunk)
        (connectSSE sampleStreamLib stopsAtOnce oneChunk) ↔
      AbortsLate stopsAtOnce [textFrame, textFrame] oneChunk :=
  connectSSE_readsOnce_iff sampleStreamLib stopsAtOnce [textFrame, textFrame] oneChunk
    (by simp [oneChunk, bytesOf, Input.bytes])

/-- The second of two frames in a chunk is still handled when the first handler aborts. -/
theorem handler_called_after_abort : ¬ ∀ (lib : StreamLib) (caller : Caller)
    (frames : List (Frame lib)) (x : Exchange), bytesOf x.inputs <+: body frames →
      ReadsOnce (expectedCalls caller frames x) (connectSSE lib caller x) := by
  intro h
  have hbody : bytesOf oneChunk.inputs = body [textFrame, textFrame] := by
    simp [oneChunk, bytesOf, Input.bytes]
  have hprefix : bytesOf oneChunk.inputs <+: body [textFrame, textFrame] := by rw [hbody]
  have hsilent := (h sampleStreamLib stopsAtOnce _ oneChunk hprefix).silent
  have hseen := (reading_reads stopsAtOnce false hprefix).seen
  rw [hbody, arrived_body] at hseen
  have hlate := (hseen.told.silent_iff.mp hsilent).2
  rw [hseen.calls] at hlate
  have hcalls : due stopsAtOnce [textFrame, textFrame] =
      [⟨.onText, [some (.string "a".toList)]⟩, ⟨.onText, [some (.string "a".toList)]⟩] := rfl
  rw [hcalls] at hlate
  have hquiet := hlate [⟨.onText, [some (.string "a".toList)]⟩] (by simp) ⟨_, rfl⟩ (by simp)
  cases hquiet

end

end DeepseekScience.Frontend
