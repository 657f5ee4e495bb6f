import DeepseekScience.Db.Sessions
import DeepseekScience.Lib.Runs

/-! The durable transcript keeps its shape: whatever transactions and restarts follow each other,
the messages of a session are numbered from one in the order in which they were appended, and every
run owns one block of them. -/
namespace DeepseekScience.Db

open Tables Transactions Runs

/-- The numbers from one. -/
def oneTo (n : ℕ) : List ℤ := (List.range n).map fun i : ℕ => (i : ℤ) + 1

theorem oneTo_add (n k : ℕ) :
    oneTo (n + k) = oneTo n ++ (List.range k).map fun i : ℕ => (n : ℤ) + (i + 1) := by
  simp only [oneTo, List.range_add, List.map_append, List.map_map, Function.comp_def, Nat.cast_add,
    add_assoc]

theorem mem_oneTo {n : ℕ} {x : ℤ} : x ∈ oneTo n ↔ 1 ≤ x ∧ x ≤ n := by
  unfold oneTo
  rw [List.mem_map]
  constructor
  · rintro ⟨i, hi, rfl⟩
    have := List.mem_range.mp hi
    omega
  · rintro ⟨h1, hn⟩
    exact ⟨(x - 1).toNat, List.mem_range.mpr (by omega), by omega⟩

theorem pairwise_oneTo (n : ℕ) : (oneTo n).Pairwise (· < ·) := by
  unfold oneTo
  rw [List.pairwise_map]
  exact List.pairwise_lt_range.imp fun h => by omega

theorem max?_oneTo (n : ℕ) : (oneTo n).max?.getD 0 = n := by
  cases n with
  | zero => rfl
  | succ n =>
    have h : (oneTo (n + 1)).max? = some ((n : ℤ) + 1) := by
      rw [List.max?_eq_some_iff]
      exact ⟨mem_oneTo.mpr (by omega), fun x hx => by have := mem_oneTo.mp hx; omega⟩
    rw [h, Option.getD_some, Nat.cast_succ]

theorem min?_oneTo (n : ℕ) : (oneTo (n + 1)).min? = some 1 := by
  rw [List.min?_eq_some_iff]
  exact ⟨mem_oneTo.mpr (by omega), fun x hx => (mem_oneTo.mp hx).1⟩

theorem length_oneTo (n : ℕ) : (oneTo n).length = n := by simp [oneTo]

/-- The block of numbers that a run claims is exactly the set of the numbers of its messages. -/
def RunRow.Spans (messages : List SessionMessageRow) (r : RunRow) : Prop :=
  (r.startSeq = none ∧ r.endSeq = none ∧ ∀ m ∈ messages, m.runId ≠ some r.runId) ∨
    ∃ a b, r.startSeq = some a ∧ r.endSeq = some b ∧ a ≤ b ∧
      ∀ x, (∃ m ∈ messages, m.runId = some r.runId ∧ m.seq = x) ↔ a ≤ x ∧ x ≤ b

/-- Every message names a run that is there, as the foreign key demands. -/
def ForeignKeys (db : SessionDb) : Prop :=
  ∀ m ∈ db.messages.rows, ∀ runId, m.runId = some runId → ∃ r ∈ db.runs.rows, r.runId = runId

/-- The shape of the transcript of a session. -/
structure Intact (db : SessionDb) (s : Text) : Prop where
  seqs : (db.messagesOf s).map (·.seq) = oneTo (db.messagesOf s).length
  ordinals : (db.runsOf s).map (·.ordinal) = oneTo (db.runsOf s).length
  owned : ∀ m ∈ db.messagesOf s, ∃ r ∈ db.runsOf s, m.runId = some r.runId
  confined : ∀ r ∈ db.runsOf s, ∀ m ∈ db.messages.rows, m.runId = some r.runId → m.sessionId = s
  spans : ∀ r ∈ db.runsOf s, r.Spans (db.messagesOf s)
  increasing : ∀ r ∈ db.runsOf s, ∀ r' ∈ db.runsOf s, r.ordinal < r'.ordinal →
    ∀ b ∈ r.endSeq, ∀ a ∈ r'.startSeq, b < a

/-! What a transaction appends. -/

/-- The rows of messages that are numbered behind `seq`. -/
def numbered (now s runId : Text) : ℤ → ℤ → List PersistMessage → List SessionMessageRow
  | _, _, [] => []
  | id, seq, message :: rest =>
    { id := id
      sessionId := s
      seq := seq + 1
      runId := some runId
      role := message.role
      content := message.content
      harnessNotice := message.harnessNotice
      createdAt := now } :: numbered now s runId (id + 1) (seq + 1) rest

def SessionMessageRow.message (m : SessionMessageRow) : PersistMessage :=
  ⟨m.role, m.content, m.harnessNotice⟩

section
variable {db db' : SessionDb} {now s s' runId : Text} {id seq : ℤ} {ms : List PersistMessage}

theorem numbered_messages :
    (numbered now s runId id seq ms).map (fun m => (m.runId, m.message)) =
      ms.map fun m => (some runId, m) := by
  induction ms generalizing id seq with
  | nil => rfl
  | cons m rest ih =>
    simp only [numbered, List.map_cons, ih]
    rfl

theorem mem_numbered {m : SessionMessageRow} (h : m ∈ numbered now s runId id seq ms) :
    m.sessionId = s ∧ m.runId = some runId := by
  induction ms generalizing id seq with
  | nil => exact absurd h (List.not_mem_nil)
  | cons message rest ih =>
    rcases List.mem_cons.mp h with rfl | h
    · exact ⟨rfl, rfl⟩
    · exact ih h

theorem numbered_seqs : (numbered now s runId id seq ms).map (·.seq) =
    (List.range ms.length).map fun i : ℕ => seq + (i + 1) := by
  induction ms generalizing id seq with
  | nil => rfl
  | cons m rest ih =>
    rw [numbered, List.map_cons, ih, List.length_cons, List.range_succ_eq_map, List.map_cons,
      List.map_map]
    congr 1
    refine List.map_congr_left fun i _ => ?_
    simp only [Function.comp_apply, Nat.cast_succ]
    omega

theorem length_numbered : (numbered now s runId id seq ms).length = ms.length := by
  have h : ((numbered now s runId id seq ms).map fun m => (m.runId, m.message)).length =
      (ms.map fun m => (some runId, m)).length := congrArg List.length numbered_messages
  simpa using h

theorem insertMessage_ok {message : PersistMessage}
    (h : db.insertMessage now s runId seq message = .ok db') :
    db'.messages.rows = db.messages.rows ++ numbered now s runId db.nextMessageId (seq - 1) [message] ∧
      db'.nextMessageId = db.nextMessageId + 1 ∧ db'.runs = db.runs ∧
      db'.sessions = db.sessions ∧ db'.projects = db.projects := by
  unfold SessionDb.insertMessage at h
  split_ifs at h with hc
  cases hinsert : db.messages.insert
      { id := db.nextMessageId
        sessionId := s
        seq := seq
        runId := some runId
        role := message.role
        content := message.content
        harnessNotice := message.harnessNotice
        createdAt := now } with
  | none =>
    rw [hinsert] at h
    cases h
  | some messages =>
    rw [hinsert] at h
    cases h
    refine ⟨?_, rfl, rfl, rfl, rfl⟩
    rw [(Table.insert_eq_some hinsert).1]
    simp [numbered]

/-- Accepted messages stand behind those that were there. -/
theorem insertMessages_ok (h : SessionDb.insertMessages now s runId db seq ms = .ok db') :
    db'.messages.rows = db.messages.rows ++ numbered now s runId db.nextMessageId seq ms ∧
      db'.runs = db.runs ∧ db'.sessions = db.sessions ∧ db'.projects = db.projects := by
  induction ms generalizing db seq with
  | nil =>
    cases h
    exact ⟨(List.append_nil _).symm, rfl, rfl, rfl⟩
  | cons message rest ih =>
    obtain ⟨db₁, hfirst, hrest⟩ := bind_eq_ok.mp h
    obtain ⟨hrows, hid, hruns, hsessions, hprojects⟩ := insertMessage_ok hfirst
    obtain ⟨hrows', hruns', hsessions', hprojects'⟩ := ih hrest
    refine ⟨?_, hruns'.trans hruns, hsessions'.trans hsessions, hprojects'.trans hprojects⟩
    rw [hrows', hrows, hid, List.append_assoc]
    simp [numbered]

theorem persistSession_ok {title : Option Text} {planMode : Bool} {status : Text}
    {planData : Option Text}
    (h : db.persistSession now s title planMode status planData = .ok db') :
    db'.messages = db.messages ∧ db'.runs = db.runs ∧
      (∃ row ∈ db.sessions.rows, row.id = s) ∧
      db'.sessions = db.sessions.update (fun r => decide (r.id = s))
        (SessionRow.persisted now title planMode status planData) fun _ => rfl := by
  obtain ⟨hcount, h⟩ := ensure_bind_eq_ok.mp h
  cases h
  refine ⟨rfl, rfl, ?_, rfl⟩
  rw [ne_eq, Table.count_eq_zero] at hcount
  push Not at hcount
  simpa using hcount

theorem insertRun_ok {r : RunRow} (h : db.insertRun r = .ok db') :
    db'.runs.rows = db.runs.rows ++ [r] ∧ db'.messages = db.messages ∧
      db'.sessions = db.sessions ∧ db'.nextMessageId = db.nextMessageId ∧
      db'.projects = db.projects := by
  unfold SessionDb.insertRun at h
  split_ifs at h with hc
  cases hinsert : db.runs.insert r with
  | none =>
    rw [hinsert] at h
    cases h
  | some runs =>
    rw [hinsert] at h
    cases h
    exact ⟨(Table.insert_eq_some hinsert).1, rfl, rfl, rfl, rfl⟩

end

/-- A change to the row of a run: its identity and its place stay. -/
structure KeepsRun (f : RunRow → RunRow) : Prop where
  runId : ∀ r, (f r).runId = r.runId
  sessionId : ∀ r, (f r).sessionId = r.sessionId
  ordinal : ∀ r, (f r).ordinal = r.ordinal

/-- What an accepted transaction of a run has written: its messages stand behind the others, and
its row reaches to the last of them. -/
structure Extends (db db' : SessionDb) (now s runId : Text) (ms : List PersistMessage) : Prop where
  messages : db'.messages.rows = db.messages.rows ++
    numbered now s runId db.nextMessageId (db.maxSeq s) ms
  run :
    (∃ f : RunRow → RunRow, KeepsRun f ∧
      db'.runs.rows = db.runs.rows.map (fun r => if r.runId = runId then f r else r) ∧
      ∃ r ∈ db.runs.rows, r.runId = runId ∧ r.sessionId = s ∧ r.endSeq = some (db.maxSeq s) ∧
        ((f r).startSeq = r.startSeq ∨ r.startSeq = none) ∧
        (f r).endSeq = some (db.maxSeq s + ms.length)) ∨
    (∃ r : RunRow, db'.runs.rows = db.runs.rows ++ [r] ∧ (∀ r' ∈ db.runs.rows, r'.runId ≠ runId) ∧
      r.runId = runId ∧ r.sessionId = s ∧ r.ordinal = db.nextOrdinal s ∧
      r.startSeq = (if ms = [] then none else some (db.maxSeq s + 1)) ∧
      r.endSeq = if ms = [] then none else some (db.maxSeq s + ms.length))

section
variable {db db' : SessionDb} {now s s' runId : Text} {ms : List PersistMessage}

theorem mem_messagesOf {m : SessionMessageRow} :
    m ∈ db.messagesOf s ↔ m ∈ db.messages.rows ∧ m.sessionId = s := by
  simp [SessionDb.messagesOf]

theorem mem_runsOf {r : RunRow} : r ∈ db.runsOf s ↔ r ∈ db.runs.rows ∧ r.sessionId = s := by
  simp [SessionDb.runsOf]

theorem Intact.maxSeq (h : Intact db s) : db.maxSeq s = (db.messagesOf s).length := by
  unfold SessionDb.maxSeq
  rw [h.seqs, max?_oneTo]

theorem Intact.nextOrdinal (h : Intact db s) : db.nextOrdinal s = (db.runsOf s).length + 1 := by
  unfold SessionDb.nextOrdinal
  rw [h.ordinals, max?_oneTo]

theorem Intact.seq_le (h : Intact db s) {m : SessionMessageRow} (hm : m ∈ db.messagesOf s) :
    1 ≤ m.seq ∧ m.seq ≤ (db.messagesOf s).length := by
  have hseq := List.mem_map_of_mem (f := (·.seq)) hm
  rw [h.seqs] at hseq
  exact mem_oneTo.mp hseq

theorem Intact.ordinal_le (h : Intact db s) {r : RunRow} (hr : r ∈ db.runsOf s) :
    r.ordinal ≤ (db.runsOf s).length := by
  have hordinal := List.mem_map_of_mem (f := (·.ordinal)) hr
  rw [h.ordinals] at hordinal
  exact (mem_oneTo.mp hordinal).2

/-- The ends of a block are numbers of messages. -/
theorem Intact.span_le (h : Intact db s) {r : RunRow} (hr : r ∈ db.runsOf s) :
    (∀ a ∈ r.startSeq, a ≤ (db.messagesOf s).length) ∧
      ∀ b ∈ r.endSeq, b ≤ (db.messagesOf s).length := by
  rcases h.spans r hr with ⟨ha, hb, -⟩ | ⟨a, b, ha, hb, hab, hspan⟩
  · simp [ha, hb]
  · obtain ⟨m, hm, -, rfl⟩ := (hspan b).mpr ⟨hab, le_refl b⟩
    have hle := (h.seq_le hm).2
    rw [ha, hb]
    simp only [Option.mem_some_iff]
    constructor
    · rintro _ rfl
      omega
    · rintro _ rfl
      exact hle

/-- A block that has an end has a start. -/
theorem RunRow.Spans.bounded {messages : List SessionMessageRow} {r : RunRow} {b : ℤ}
    (h : r.Spans messages) (hb : r.endSeq = some b) :
    ∃ a, r.startSeq = some a ∧ a ≤ b ∧
      ∀ x, (∃ m ∈ messages, m.runId = some r.runId ∧ m.seq = x) ↔ a ≤ x ∧ x ≤ b := by
  rcases h with ⟨-, hb', -⟩ | ⟨a, b', ha, hb', hab, hspan⟩
  · rw [hb'] at hb
    cases hb
  · rw [hb'] at hb
    cases hb
    exact ⟨a, ha, hab, hspan⟩

theorem exists_numbered (now s runId : Text) (id seq : ℤ) (ms : List PersistMessage) {x : ℤ} :
    (∃ m ∈ numbered now s runId id seq ms, m.seq = x) ↔ seq < x ∧ x ≤ seq + ms.length := by
  have hseqs : (∃ m ∈ numbered now s runId id seq ms, m.seq = x) ↔
      x ∈ (numbered now s runId id seq ms).map (·.seq) := List.mem_map.symm
  rw [hseqs, numbered_seqs, List.mem_map]
  constructor
  · rintro ⟨i, hi, rfl⟩
    have := List.mem_range.mp hi
    omega
  · rintro ⟨hlt, hle⟩
    exact ⟨(x - seq - 1).toNat, List.mem_range.mpr (by omega), by omega⟩

theorem updateRun_rows {f : RunRow → RunRow} {hf : ∀ r, (f r).runId = r.runId} :
    (db.updateRun runId f hf).runs.rows =
      db.runs.rows.map fun r => if r.runId = runId then f r else r := by
  simp only [SessionDb.updateRun, Table.update, decide_eq_true_eq]

/-! The transactions extend the transcript. -/

theorem checkpointRun_ok {request : PersistCheckpointRequest}
    (h : db.checkpointRun request (db.maxSeq request.sessionId) = .ok db') :
    db'.messages = db.messages ∧ db'.nextMessageId = db.nextMessageId ∧
      db'.sessions = db.sessions ∧ db'.projects = db.projects := by
  unfold SessionDb.checkpointRun at h
  cases hfind : db.runs.find request.runId with
  | none =>
    rw [hfind] at h
    obtain ⟨-, hm, hs, hid, hp⟩ := insertRun_ok h
    exact ⟨hm, hid, hs, hp⟩
  | some run =>
    rw [hfind] at h
    obtain ⟨-, h⟩ := ensure_bind_eq_ok.mp h
    obtain ⟨-, h⟩ := ensure_bind_eq_ok.mp h
    obtain ⟨-, h⟩ := ensure_bind_eq_ok.mp h
    cases h
    exact ⟨rfl, rfl, rfl, rfl⟩

theorem appendHistoryCheckpoint_ok {request : PersistCheckpointRequest} {n : ℕ}
    (h : db.appendHistoryCheckpoint now request = .ok (n, db')) :
    n = request.expectedCount + request.messages.length ∧
      (db.messagesOf request.sessionId).length = request.expectedCount ∧
      ∃ db₁ db₂, db.checkpointRun request (db.maxSeq request.sessionId) = .ok db₁ ∧
        SessionDb.insertMessages now request.sessionId request.runId db₁
          (db.maxSeq request.sessionId) request.messages = .ok db₂ ∧
        db₂.persistSession now request.sessionId request.title request.planMode request.status
          request.planData = .ok db' := by
  obtain ⟨⟨hcount, -⟩, h⟩ := ensure_bind_eq_ok.mp h
  obtain ⟨db₁, hrun, h⟩ := bind_eq_ok.mp h
  obtain ⟨db₂, hmessages, h⟩ := bind_eq_ok.mp h
  obtain ⟨db₃, hsession, h⟩ := bind_eq_ok.mp h
  cases h
  exact ⟨rfl, hcount, db₁, db₂, hrun, hmessages, hsession⟩

theorem appendHistoryCheckpoint_extends {request : PersistCheckpointRequest} {n : ℕ}
    (h : db.appendHistoryCheckpoint now request = .ok (n, db')) :
    Extends db db' now request.sessionId request.runId request.messages := by
  obtain ⟨-, -, db₁, db₂, hrun, hmessages, hsession⟩ := appendHistoryCheckpoint_ok h
  obtain ⟨hrows, hruns, -⟩ := insertMessages_ok hmessages
  obtain ⟨hrows', hruns', -⟩ := persistSession_ok hsession
  obtain ⟨hm, hid, -⟩ := checkpointRun_ok hrun
  refine ⟨by rw [hrows', hrows, hm, hid], ?_⟩
  rw [hruns', hruns]
  unfold SessionDb.checkpointRun at hrun
  cases hfind : db.runs.find request.runId with
  | none =>
    rw [hfind] at hrun
    refine Or.inr ⟨_, (insertRun_ok hrun).1, Table.find_eq_none.mp hfind, rfl, rfl, rfl, ?_, ?_⟩
    · simp only [List.isEmpty_iff]
    · simp only [List.isEmpty_iff]
  | some run =>
    rw [hfind] at hrun
    obtain ⟨hs, hrun⟩ := ensure_bind_eq_ok.mp hrun
    obtain ⟨-, hrun⟩ := ensure_bind_eq_ok.mp hrun
    obtain ⟨hend, hrun⟩ := ensure_bind_eq_ok.mp hrun
    cases hrun
    obtain ⟨hmem, hid⟩ := Table.find_eq_some.mp hfind
    refine Or.inl ⟨RunRow.checkpointed request _ _, ⟨fun _ => rfl, fun _ => rfl, fun _ => rfl⟩,
      updateRun_rows, run, hmem, hid, hs, hend, ?_, ?_⟩
    · unfold RunRow.checkpointed
      cases hstart : run.startSeq with
      | none => exact Or.inr rfl
      | some a => exact Or.inl rfl
    · unfold RunRow.checkpointed
      by_cases hempty : request.messages.isEmpty = true
      · simp [hend, List.isEmpty_iff.mp hempty]
      · simp [hempty]

theorem terminateRun_ok {request : PersistRunRequest} {ordinal : ℤ} {startSeq endSeq : Option ℤ}
    (h : db.terminateRun now request ordinal startSeq endSeq = .ok db') :
    db'.messages = db.messages ∧ db'.nextMessageId = db.nextMessageId ∧
      db'.sessions = db.sessions := by
  unfold SessionDb.terminateRun at h
  cases hfind : db.runs.find request.runId with
  | none =>
    rw [hfind] at h
    obtain ⟨-, hm, hs, hid, -⟩ := insertRun_ok h
    exact ⟨hm, hid, hs⟩
  | some run =>
    rw [hfind] at h
    cases h
    exact ⟨rfl, rfl, rfl⟩

theorem touchProject_frame (db : SessionDb) (now : Text) (session : SessionRow) :
    (db.touchProject now session).messages = db.messages ∧
      (db.touchProject now session).runs = db.runs ∧
      (db.touchProject now session).sessions = db.sessions := by
  unfold SessionDb.touchProject
  split <;> exact ⟨rfl, rfl, rfl⟩

/-- The start of the block of a run that ends. -/
def terminalStart (db : SessionDb) (request : PersistRunRequest) : Option ℤ :=
  (((db.runs.find request.runId).bind RunRow.startSeq).or request.checkpointStartSeq).or
    (if request.messages.isEmpty then none else some (db.maxSeq request.sessionId + 1))

/-- The end of the block of a run that ends. -/
def terminalEnd (db : SessionDb) (request : PersistRunRequest) : Option ℤ :=
  if request.messages.isEmpty then
    ((db.runs.find request.runId).bind RunRow.endSeq).or
      (request.checkpointStartSeq.map fun _ => db.maxSeq request.sessionId)
  else some (db.maxSeq request.sessionId + request.messages.length)

theorem persistRun_ok {request : PersistRunRequest} {result : PersistRunResult}
    (h : db.persistRun now request = .ok (result, db')) :
    ∃ session db₁ written db₂ db₃, db.sessions.find request.sessionId = some session ∧
      db.terminalOrdinal request = .ok result.ordinal ∧
      db.ensureCheckpoint request (db.maxSeq request.sessionId) = .ok () ∧
      db.terminateRun now request result.ordinal (terminalStart db request)
        (terminalEnd db request) = .ok db₁ ∧
      db₁.checkpointMessages request (db.maxSeq request.sessionId) = .ok written ∧
      SessionDb.insertMessages now request.sessionId request.runId db₁
        (db.maxSeq request.sessionId) request.messages = .ok db₂ ∧
      db₂.persistSession now request.sessionId request.title request.planMode request.status
        request.planData = .ok db₃ ∧
      db' = db₃.touchProject now session ∧ result.startSeq = terminalStart db request ∧
      result.endSeq = terminalEnd db request := by
  obtain ⟨session, hsession, h⟩ := bind_eq_ok.mp h
  obtain ⟨ordinal, hordinal, h⟩ := bind_eq_ok.mp h
  obtain ⟨⟨⟩, hensure, h⟩ := bind_eq_ok.mp h
  obtain ⟨db₁, hrun, h⟩ := bind_eq_ok.mp h
  obtain ⟨written, hwritten, h⟩ := bind_eq_ok.mp h
  obtain ⟨db₂, hmessages, h⟩ := bind_eq_ok.mp h
  obtain ⟨db₃, hpersist, h⟩ := bind_eq_ok.mp h
  cases h
  refine ⟨session, db₁, written, db₂, db₃, ?_, hordinal, hensure, hrun, hwritten, hmessages,
    hpersist, rfl, rfl, rfl⟩
  unfold SessionDb.requireSession at hsession
  cases hfind : db.sessions.find request.sessionId with
  | none =>
    rw [hfind] at hsession
    cases hsession
  | some row =>
    rw [hfind] at hsession
    cases hsession
    rfl

/-- A run whose messages are claimed to be checkpointed owns them, so it is there. -/
theorem checkpointMessages_none (hkeys : ForeignKeys db) {request : PersistRunRequest} {n : ℕ}
    {seq : ℤ} (hfind : db.runs.find request.runId = none)
    (hok : db.checkpointMessages request seq = .ok n) : request.checkpointStartSeq = none := by
  unfold SessionDb.checkpointMessages at hok
  cases hstart : request.checkpointStartSeq with
  | none => rfl
  | some start =>
    rw [hstart] at hok
    obtain ⟨⟨hpos, hle⟩, hok⟩ := ensure_bind_eq_ok.mp hok
    obtain ⟨hcount, -⟩ := ensure_bind_eq_ok.mp hok
    have hnone : (db.messagesOf request.sessionId).countP (fun m =>
        decide (start ≤ m.seq ∧ m.seq ≤ seq ∧ m.runId = some request.runId)) = 0 := by
      rw [List.countP_eq_zero]
      intro m hm hp
      obtain ⟨-, -, hrun⟩ := of_decide_eq_true hp
      obtain ⟨r, hr, hid⟩ := hkeys m (mem_messagesOf.mp hm).1 request.runId hrun
      exact Table.find_eq_none.mp hfind r hr hid
    rw [hnone] at hcount
    simp only [Nat.cast_zero] at hcount
    omega

theorem persistRun_extends {request : PersistRunRequest} {result : PersistRunResult}
    (hkeys : ForeignKeys db) (h : db.persistRun now request = .ok (result, db')) :
    Extends db db' now request.sessionId request.runId request.messages := by
  obtain ⟨session, db₁, written, db₂, db₃, -, hordinal, hensure, hrun, hwritten, hmessages,
    hpersist, rfl, -⟩ := persistRun_ok h
  obtain ⟨hrows, hruns, -⟩ := insertMessages_ok hmessages
  obtain ⟨hrows', hruns', -⟩ := persistSession_ok hpersist
  obtain ⟨hm, hid, -⟩ := terminateRun_ok hrun
  obtain ⟨hrows'', hruns'', -⟩ := touchProject_frame db₃ now session
  refine ⟨by rw [hrows'', hrows', hrows, hm, hid], ?_⟩
  rw [hruns'', hruns', hruns]
  unfold SessionDb.terminateRun at hrun
  unfold SessionDb.ensureCheckpoint at hensure
  unfold SessionDb.terminalOrdinal at hordinal
  cases hfind : db.runs.find request.runId with
  | none =>
    have hsame : db₁.messagesOf request.sessionId = db.messagesOf request.sessionId := by
      unfold SessionDb.messagesOf
      rw [hm]
    have hstart : request.checkpointStartSeq = none := by
      apply checkpointMessages_none hkeys hfind (n := written)
      unfold SessionDb.checkpointMessages at hwritten ⊢
      rw [hsame] at hwritten
      exact hwritten
    rw [hfind] at hrun hordinal
    refine Or.inr ⟨_, (insertRun_ok hrun).1, Table.find_eq_none.mp hfind, rfl, rfl,
      (pure_eq_ok.mp hordinal).symm, ?_, ?_⟩
    · simp [terminalStart, hfind, hstart, List.isEmpty_iff]
    · simp [terminalEnd, hfind, hstart, List.isEmpty_iff]
  | some run =>
    rw [hfind] at hrun hensure hordinal
    obtain ⟨hs, -⟩ := ensure_bind_eq_ok.mp hordinal
    obtain ⟨hstart, hensure⟩ := ensure_bind_eq_ok.mp hensure
    have hend := ensure_eq_ok.mp hensure
    cases hrun
    obtain ⟨hmem, hid⟩ := Table.find_eq_some.mp hfind
    refine Or.inl ⟨RunRow.terminated request _ _ _, ⟨fun _ => rfl, fun _ => rfl, fun _ => rfl⟩,
      updateRun_rows, run, hmem, hid, hs, hend, ?_, ?_⟩
    · cases hrunStart : run.startSeq with
      | none => exact Or.inr rfl
      | some a => exact Or.inl (by simp [RunRow.terminated, terminalStart, hfind, hrunStart])
    · by_cases hempty : request.messages.isEmpty = true
      · simp [RunRow.terminated, terminalEnd, hfind, hend, List.isEmpty_iff.mp hempty]
      · simp [RunRow.terminated, terminalEnd, hempty]

end
/-! A transaction keeps the shape. -/

section
variable {db db' : SessionDb} {now s s' runId : Text} {ms : List PersistMessage}

namespace Extends

theorem messagesOf (h : Extends db db' now s runId ms) : db'.messagesOf s = db.messagesOf s ++
    numbered now s runId db.nextMessageId (db.maxSeq s) ms := by
  unfold SessionDb.messagesOf
  rw [h.messages, List.filter_append]
  congr 1
  rw [List.filter_eq_self]
  exact fun m hm => decide_eq_true (mem_numbered hm).1

theorem messagesOf_ne (h : Extends db db' now s runId ms) (hne : s ≠ s') :
    db'.messagesOf s' = db.messagesOf s' := by
  unfold SessionDb.messagesOf
  rw [h.messages, List.filter_append, List.append_right_eq_self, List.filter_eq_nil_iff]
  intro m hm hs
  exact hne ((mem_numbered hm).1.symm.trans (of_decide_eq_true hs))

/-- The runs of a session behind the transaction of a run. -/
theorem runsOf (h : Extends db db' now s runId ms) :
    (∃ f : RunRow → RunRow, KeepsRun f ∧
      (∀ s', db'.runsOf s' = (db.runsOf s').map fun r => if r.runId = runId then f r else r) ∧
      ∃ r ∈ db.runsOf s, r.runId = runId ∧ r.endSeq = some (db.maxSeq s) ∧
        ((f r).startSeq = r.startSeq ∨ r.startSeq = none) ∧
        (f r).endSeq = some (db.maxSeq s + ms.length)) ∨
    ∃ r : RunRow, db'.runsOf s = db.runsOf s ++ [r] ∧
      (∀ s', s ≠ s' → db'.runsOf s' = db.runsOf s') ∧
      (∀ r' ∈ db.runs.rows, r'.runId ≠ runId) ∧ r.runId = runId ∧ r.ordinal = db.nextOrdinal s ∧
      r.startSeq = (if ms = [] then none else some (db.maxSeq s + 1)) ∧
      r.endSeq = if ms = [] then none else some (db.maxSeq s + ms.length) := by
  rcases h.run with ⟨f, hf, hrows, r, hr, hid, hs, hend, hrest⟩ |
    ⟨r, hrows, hnew, hid, hs, hordinal, hstart, hend⟩
  · refine Or.inl ⟨f, hf, fun s' => ?_, r, mem_runsOf.mpr ⟨hr, hs⟩, hid, hend, hrest⟩
    unfold SessionDb.runsOf
    rw [hrows, List.filter_map]
    congr 1
    refine List.filter_congr fun r _ => ?_
    simp only [Function.comp_apply]
    split_ifs
    · rw [hf.sessionId]
    · rfl
  · refine Or.inr ⟨r, ?_, fun s' hne => ?_, hnew, hid, hordinal, hstart, hend⟩
    · unfold SessionDb.runsOf
      rw [hrows, List.filter_append, List.filter_singleton, decide_eq_true hs, cond_true]
    · unfold SessionDb.runsOf
      rw [hrows, List.filter_append, List.append_right_eq_self, List.filter_eq_nil_iff]
      intro r' hr' hs'
      rw [List.mem_singleton.mp hr'] at hs'
      exact hne (hs.symm.trans (of_decide_eq_true hs'))

theorem foreignKeys (h : Extends db db' now s runId ms) (hdb : ForeignKeys db) :
    ForeignKeys db' := by
  intro m hm id hid
  rw [h.messages] at hm
  have hkeep : ∀ r ∈ db.runs.rows, ∃ r' ∈ db'.runs.rows, r'.runId = r.runId := by
    intro r hr
    rcases h.run with ⟨f, hf, hrows, -⟩ | ⟨r', hrows, -⟩
    · rw [hrows]
      refine ⟨_, List.mem_map_of_mem hr, ?_⟩
      split_ifs
      · exact hf.runId r
      · rfl
    · rw [hrows]
      exact ⟨r, List.mem_append_left _ hr, rfl⟩
  rcases List.mem_append.mp hm with hm | hm
  · obtain ⟨r, hr, rfl⟩ := hdb m hm id hid
    exact hkeep r hr
  · rw [(mem_numbered hm).2] at hid
    cases hid
    rcases h.run with ⟨-, -, -, r, hr, hrid, -⟩ | ⟨r, hrows, -, hrid, -⟩
    · obtain ⟨r', hr', hid'⟩ := hkeep r hr
      exact ⟨r', hr', hid'.trans hrid⟩
    · rw [hrows]
      exact ⟨r, List.mem_append_right _ (List.mem_singleton_self _), hrid⟩

end Extends

theorem Extends.seqs (h : Extends db db' now s runId ms) (hdb : Intact db s) :
    (db'.messagesOf s).map (·.seq) = oneTo (db'.messagesOf s).length := by
  rw [h.messagesOf, List.map_append, numbered_seqs, List.length_append, length_numbered, oneTo_add,
    hdb.seqs, hdb.maxSeq]

/-- The messages of a run behind the transaction of another one. -/
theorem Extends.spans_of_ne (h : Extends db db' now s runId ms) {r : RunRow}
    (hne : r.runId ≠ runId) (hr : r.Spans (db.messagesOf s)) : r.Spans (db'.messagesOf s) := by
  have hnew : ∀ m ∈ numbered now s runId db.nextMessageId (db.maxSeq s) ms,
      m.runId ≠ some r.runId := by
    intro m hm hid
    rw [(mem_numbered hm).2] at hid
    exact hne (Option.some.inj hid).symm
  rw [h.messagesOf]
  rcases hr with ⟨ha, hb, hnone⟩ | ⟨a, b, ha, hb, hab, hspan⟩
  · refine Or.inl ⟨ha, hb, fun m hm => ?_⟩
    rcases List.mem_append.mp hm with hm | hm
    · exact hnone m hm
    · exact hnew m hm
  · refine Or.inr ⟨a, b, ha, hb, hab, fun x => ?_⟩
    rw [← hspan x]
    constructor
    · rintro ⟨m, hm, hid, hx⟩
      rcases List.mem_append.mp hm with hm | hm
      · exact ⟨m, hm, hid, hx⟩
      · exact absurd hid (hnew m hm)
    · rintro ⟨m, hm, hid, hx⟩
      exact ⟨m, List.mem_append_left _ hm, hid, hx⟩

/-- A run that goes on reaches to the last message. -/
theorem Extends.spans_update (h : Extends db db' now s runId ms) (hdb : Intact db s) {r r' : RunRow}
    (hr : r ∈ db.runsOf s) (hid : r.runId = runId) (hend : r.endSeq = some (db.maxSeq s))
    (hid' : r'.runId = runId) (hstart' : r'.startSeq = r.startSeq)
    (hend' : r'.endSeq = some (db.maxSeq s + ms.length)) : r'.Spans (db'.messagesOf s) := by
  obtain ⟨a, ha, hle, hspan⟩ := (hdb.spans r hr).bounded hend
  refine Or.inr ⟨a, _, hstart'.trans ha, hend', by omega, fun x => ?_⟩
  have hnew := exists_numbered now s runId db.nextMessageId (db.maxSeq s) ms (x := x)
  rw [h.messagesOf, hid']
  rw [hid] at hspan
  constructor
  · rintro ⟨m, hm, hmid, hx⟩
    rcases List.mem_append.mp hm with hm | hm
    · have := (hspan x).mp ⟨m, hm, hmid, hx⟩
      omega
    · have := hnew.mp ⟨m, hm, hx⟩
      omega
  · rintro ⟨hax, hxb⟩
    rcases le_or_gt x (db.maxSeq s) with hx | hx
    · obtain ⟨m, hm, hmid, hmx⟩ := (hspan x).mpr ⟨hax, hx⟩
      exact ⟨m, List.mem_append_left _ hm, hmid, hmx⟩
    · obtain ⟨m, hm, hmx⟩ := hnew.mpr ⟨hx, hxb⟩
      exact ⟨m, List.mem_append_right _ hm, (mem_numbered hm).2, hmx⟩

/-- A run that begins owns what it has appended. -/
theorem Extends.spans_insert (h : Extends db db' now s runId ms) (hkeys : ForeignKeys db)
    (hnew : ∀ r ∈ db.runs.rows, r.runId ≠ runId) {r : RunRow} (hid : r.runId = runId)
    (hstart : r.startSeq = if ms = [] then none else some (db.maxSeq s + 1))
    (hend : r.endSeq = if ms = [] then none else some (db.maxSeq s + ms.length)) :
    r.Spans (db'.messagesOf s) := by
  have hold : ∀ m ∈ db.messagesOf s, m.runId ≠ some runId := by
    intro m hm hmid
    obtain ⟨r', hr', hid'⟩ := hkeys m (mem_messagesOf.mp hm).1 runId hmid
    exact hnew r' hr' hid'
  rw [h.messagesOf]
  unfold RunRow.Spans
  rw [hid]
  by_cases hempty : ms = []
  · rw [if_pos hempty] at hstart hend
    refine Or.inl ⟨hstart, hend, fun m hm => ?_⟩
    rw [hempty] at hm
    rcases List.mem_append.mp hm with hm | hm
    · exact hold m hm
    · exact absurd hm List.not_mem_nil
  · rw [if_neg hempty] at hstart hend
    have hpos := List.length_pos_of_ne_nil hempty
    refine Or.inr ⟨_, _, hstart, hend, by omega, fun x => ?_⟩
    have hnumbered := exists_numbered now s runId db.nextMessageId (db.maxSeq s) ms (x := x)
    constructor
    · rintro ⟨m, hm, hmid, hx⟩
      rcases List.mem_append.mp hm with hm | hm
      · exact absurd hmid (hold m hm)
      · have := hnumbered.mp ⟨m, hm, hx⟩
        omega
    · intro hx
      obtain ⟨m, hm, hmx⟩ := hnumbered.mpr (by omega)
      exact ⟨m, List.mem_append_right _ hm, (mem_numbered hm).2, hmx⟩

theorem Intact.extends_update {f : RunRow → RunRow} (h : Extends db db' now s runId ms)
    (hdb : Intact db s) (hf : KeepsRun f)
    (hruns : db'.runsOf s = (db.runsOf s).map fun r => if r.runId = runId then f r else r)
    {r₀ : RunRow} (hr₀ : r₀ ∈ db.runsOf s) (hid₀ : r₀.runId = runId)
    (hend₀ : r₀.endSeq = some (db.maxSeq s))
    (hstart : (f r₀).startSeq = r₀.startSeq ∨ r₀.startSeq = none)
    (hend : (f r₀).endSeq = some (db.maxSeq s + ms.length)) : Intact db' s := by
  have hstart₀ : (f r₀).startSeq = r₀.startSeq := by
    rcases hstart with hstart | hnone
    · exact hstart
    · obtain ⟨a, ha, -⟩ := (hdb.spans r₀ hr₀).bounded hend₀
      rw [hnone] at ha
      cases ha
  -- the rows of a session are told apart by the ids of their runs
  have heq : ∀ r ∈ db.runsOf s, r.runId = runId → r = r₀ := fun r hr hid =>
    Table.eq_of_key (mem_runsOf.mp hr).1 (mem_runsOf.mp hr₀).1 (hid.trans hid₀.symm)
  have hmem : ∀ r' ∈ db'.runsOf s, ∃ r ∈ db.runsOf s, r'.runId = r.runId ∧ r'.ordinal = r.ordinal ∧
      r'.startSeq = r.startSeq ∧
      (r' = r ∧ r.runId ≠ runId ∨ r = r₀ ∧ r'.endSeq = some (db.maxSeq s + ms.length)) := by
    intro r' hr'
    rw [hruns] at hr'
    obtain ⟨r, hr, rfl⟩ := List.mem_map.mp hr'
    split_ifs with hid
    · obtain rfl := heq r hr hid
      exact ⟨r, hr, hf.runId r, hf.ordinal r, hstart₀, Or.inr ⟨rfl, hend⟩⟩
    · exact ⟨r, hr, rfl, rfl, rfl, Or.inl ⟨rfl, hid⟩⟩
  refine ⟨h.seqs hdb, ?_, ?_, ?_, ?_, ?_⟩
  · rw [hruns, List.map_map, List.length_map, ← hdb.ordinals]
    refine List.map_congr_left fun r _ => ?_
    simp only [Function.comp_apply]
    split_ifs
    · exact hf.ordinal r
    · rfl
  · intro m hm
    have hkeep : ∀ r ∈ db.runsOf s, ∃ r' ∈ db'.runsOf s, r'.runId = r.runId := by
      intro r hr
      rw [hruns]
      refine ⟨_, List.mem_map_of_mem hr, ?_⟩
      split_ifs
      · exact hf.runId r
      · rfl
    rw [h.messagesOf] at hm
    rcases List.mem_append.mp hm with hm | hm
    · obtain ⟨r, hr, hmid⟩ := hdb.owned m hm
      obtain ⟨r', hr', hid'⟩ := hkeep r hr
      exact ⟨r', hr', by rw [hmid, hid']⟩
    · obtain ⟨r', hr', hid'⟩ := hkeep r₀ hr₀
      exact ⟨r', hr', by rw [(mem_numbered hm).2, hid', hid₀]⟩
  · intro r' hr' m hm hmid
    obtain ⟨r, hr, hid, -⟩ := hmem r' hr'
    rw [h.messages] at hm
    rcases List.mem_append.mp hm with hm | hm
    · exact hdb.confined r hr m hm (hid ▸ hmid)
    · exact (mem_numbered hm).1
  · intro r' hr'
    obtain ⟨r, hr, hid, -, hstart', ⟨rfl, hne⟩ | ⟨rfl, hend'⟩⟩ := hmem r' hr'
    · exact h.spans_of_ne hne (hdb.spans r' hr)
    · exact h.spans_update hdb hr hid₀ hend₀ (hid.trans hid₀) hstart' hend'
  · intro r₁ hr₁ r₂ hr₂ hlt b hb a ha
    obtain ⟨r, hr, -, hordinal, -, hr₁'⟩ := hmem r₁ hr₁
    obtain ⟨r', hr', -, hordinal', hstart', -⟩ := hmem r₂ hr₂
    rw [hordinal, hordinal'] at hlt
    rw [hstart'] at ha
    rcases hr₁' with ⟨rfl, -⟩ | ⟨rfl, hend'⟩
    · exact hdb.increasing r₁ hr r' hr' hlt b hb a ha
    · -- no run begins behind the one that reaches to the last message
      have hgt := hdb.increasing r hr r' hr' hlt _ hend₀ a ha
      have hle := (hdb.span_le hr').1 a ha
      rw [hdb.maxSeq] at hgt
      omega

theorem Intact.extends_insert (h : Extends db db' now s runId ms) (hdb : Intact db s)
    (hkeys : ForeignKeys db) {r₀ : RunRow} (hruns : db'.runsOf s = db.runsOf s ++ [r₀])
    (hnew : ∀ r ∈ db.runs.rows, r.runId ≠ runId) (hid₀ : r₀.runId = runId)
    (hordinal : r₀.ordinal = db.nextOrdinal s)
    (hstart : r₀.startSeq = if ms = [] then none else some (db.maxSeq s + 1))
    (hend : r₀.endSeq = if ms = [] then none else some (db.maxSeq s + ms.length)) :
    Intact db' s := by
  have hmem : ∀ r ∈ db'.runsOf s, r ∈ db.runsOf s ∧ r.runId ≠ runId ∨ r = r₀ := by
    intro r hr
    rw [hruns] at hr
    rcases List.mem_append.mp hr with hr | hr
    · exact Or.inl ⟨hr, hnew r (mem_runsOf.mp hr).1⟩
    · exact Or.inr (List.mem_singleton.mp hr)
  have hr₀ : r₀ ∈ db'.runsOf s := by
    rw [hruns]
    exact List.mem_append_right _ (List.mem_singleton_self _)
  refine ⟨h.seqs hdb, ?_, ?_, ?_, ?_, ?_⟩
  · rw [hruns, List.map_append, List.length_append, List.length_singleton, oneTo_add, hdb.ordinals,
      List.map_singleton, hordinal, hdb.nextOrdinal]
    simp
  · intro m hm
    rw [h.messagesOf] at hm
    rcases List.mem_append.mp hm with hm | hm
    · obtain ⟨r, hr, hmid⟩ := hdb.owned m hm
      exact ⟨r, hruns ▸ List.mem_append_left _ hr, hmid⟩
    · exact ⟨r₀, hr₀, by rw [(mem_numbered hm).2, hid₀]⟩
  · intro r hr m hm hmid
    rw [h.messages] at hm
    rcases List.mem_append.mp hm with hm | hm
    · rcases hmem r hr with ⟨hr, -⟩ | rfl
      · exact hdb.confined r hr m hm hmid
      · obtain ⟨r', hr', hid'⟩ := hkeys m hm r.runId hmid
        exact absurd (hid'.trans hid₀) (hnew r' hr')
    · exact (mem_numbered hm).1
  · intro r hr
    rcases hmem r hr with ⟨hr, hne⟩ | rfl
    · exact h.spans_of_ne hne (hdb.spans r hr)
    · exact h.spans_insert hkeys hnew hid₀ hstart hend
  · intro r hr r' hr' hlt b hb a ha
    rcases hmem r hr with ⟨hr, -⟩ | rfl
    · rcases hmem r' hr' with ⟨hr', -⟩ | rfl
      · exact hdb.increasing r hr r' hr' hlt b hb a ha
      · have hle := (hdb.span_le hr).2 b hb
        rw [hstart] at ha
        split_ifs at ha
        · cases ha
        · obtain rfl := Option.some.inj ha
          rw [hdb.maxSeq]
          omega
    · rcases hmem r' hr' with ⟨hr', -⟩ | rfl
      · have hle := hdb.ordinal_le hr'
        rw [hordinal, hdb.nextOrdinal] at hlt
        omega
      · exact absurd hlt (lt_irrefl _)

/-- The session that a transaction writes to keeps its shape. -/
theorem Intact.extends (h : Extends db db' now s runId ms) (hdb : Intact db s)
    (hkeys : ForeignKeys db) : Intact db' s := by
  rcases h.runsOf with ⟨f, hf, hruns, r, hr, hid, hend, hstart, hend'⟩ |
    ⟨r, hruns, -, hnew, hid, hordinal, hstart, hend⟩
  · exact Intact.extends_update h hdb hf (hruns s) hr hid hend hstart hend'
  · exact Intact.extends_insert h hdb hkeys hruns hnew hid hordinal hstart hend

/-- The other sessions keep theirs. -/
theorem Intact.extends_ne (h : Extends db db' now s runId ms) (hne : s ≠ s')
    (hdb : Intact db s') : Intact db' s' := by
  have hmessages := h.messagesOf_ne hne
  -- a run of the other session is not the one that writes
  have hforeign : ∀ r ∈ db.runsOf s', r.runId ≠ runId := by
    intro r hr hid
    rcases h.runsOf with ⟨-, -, -, r₀, hr₀, hid₀, -⟩ | ⟨-, -, -, hnew, -⟩
    · have heq : r = r₀ := Table.eq_of_key (mem_runsOf.mp hr).1 (mem_runsOf.mp hr₀).1
        (hid.trans hid₀.symm)
      rw [heq] at hr
      exact hne ((mem_runsOf.mp hr₀).2.symm.trans (mem_runsOf.mp hr).2)
    · exact hnew r (mem_runsOf.mp hr).1 hid
  have hruns : db'.runsOf s' = db.runsOf s' := by
    rcases h.runsOf with ⟨f, -, hruns, -⟩ | ⟨-, -, hruns, -⟩
    · rw [hruns s']
      have hsame : ((db.runsOf s').map fun r => if r.runId = runId then f r else r) =
          (db.runsOf s').map id := List.map_congr_left fun r hr => if_neg (hforeign r hr)
      rw [hsame, List.map_id]
    · exact hruns s' hne
  refine ⟨by rw [hmessages]; exact hdb.seqs, by rw [hruns]; exact hdb.ordinals, ?_, ?_, ?_, ?_⟩
  · rw [hmessages, hruns]
    exact hdb.owned
  · rw [hruns, h.messages]
    intro r hr m hm hmid
    rcases List.mem_append.mp hm with hm | hm
    · exact hdb.confined r hr m hm hmid
    · rw [(mem_numbered hm).2] at hmid
      exact absurd (Option.some.inj hmid).symm (hforeign r hr)
  · rw [hmessages, hruns]
    exact hdb.spans
  · rw [hruns]
    exact hdb.increasing

end
end DeepseekScience.Db
