import DeepseekScience.Db.JobOrder
import DeepseekScience.Db.Membership
import DeepseekScience.Db.Recovery

/-! The transcript and the directory are two views of one database: what a committed transaction of
the transcript writes to sessions and projects is what the directory makes of it. -/
namespace DeepseekScience.Db

open Tables Transactions Runs

/-- An update of the rows that a table shows of another one. -/
theorem update_rows_map {R R' K K' : Type*} {key : R → K} {key' : R' → K'} {t : Table key}
    {t' : Table key'} {g : R → R'} {p : R → Bool} {p' : R' → Bool} {f : R → R} {f' : R' → R'}
    (hf : ∀ r, key (f r) = key r) (hf' : ∀ r, key' (f' r) = key' r)
    (h : t'.rows = t.rows.map g) (hp : ∀ r, p' (g r) = p r) (hg : ∀ r, g (f r) = f' (g r)) :
    (t'.update p' f' hf').rows = (t.update p f hf).rows.map g := by
  simp only [Table.update, h, List.map_map]
  apply List.map_congr_left
  intro r _
  simp only [Function.comp_apply, hp]
  split
  · exact (hg r).symm
  · rfl

/-- The transcript shows the sessions and the projects of the directory. -/
structure Shows (db : Directory) (t : SessionDb) : Prop where
  sessions : t.sessions.rows = db.sessions.rows.map fun s => s.toSessionRow
  projects : t.projects.rows = db.projects.rows.map fun p => p.toProjectRow

/-- What a transaction of the transcript is to the directory. -/
def TranscriptOp.writes : TranscriptOp → List DirectoryOp
  | .checkpoint now request =>
    [.persistSession now request.sessionId request.title request.planMode request.status
      request.planData false]
  | .persist now request =>
    [.persistSession now request.sessionId request.title request.planMode request.status
      request.planData true]
  | .restart _ => []

section
variable {db : Directory} {t t' : SessionDb} {now : Text}

theorem Shows.find (h : Shows db t) (id : Text) :
    t.sessions.find id = (db.sessions.find id).map fun s => s.toSessionRow := by
  unfold Table.find
  rw [h.sessions, List.find?_map]
  rfl

theorem Shows.namedLast (h : Shows db t) (id projectId : Text) :
    Shows (db.namedLast now id projectId) { t with
      projects := t.projects.update (fun p => decide (p.id = projectId))
        (fun p => { p with lastSessionId := some id, updatedAt := now }) fun _ => rfl } :=
  ⟨h.sessions, by refine update_rows_map ?_ ?_ h.projects ?_ ?_ <;> exact fun _ => rfl⟩

theorem terminateRun_projects {request : PersistRunRequest} {ordinal : ℤ}
    {startSeq endSeq : Option ℤ} (h : t.terminateRun now request ordinal startSeq endSeq = .ok t') :
    t'.projects = t.projects := by
  unfold SessionDb.terminateRun at h
  cases hfind : t.runs.find request.runId with
  | none =>
    rw [hfind] at h
    exact (insertRun_ok h).2.2.2.2
  | some run =>
    rw [hfind] at h
    cases h
    rfl

theorem persistSession_projects {id : Text} {title : Option Text} {planMode : Bool} {status : Text}
    {planData : Option Text} (h : t.persistSession now id title planMode status planData = .ok t') :
    t'.projects = t.projects := by
  obtain ⟨-, h⟩ := ensure_bind_eq_ok.mp h
  cases h
  rfl

theorem Shows.persistSession (h : Shows db t) {id : Text} {title : Option Text} {planMode : Bool}
    {status : Text} {planData : Option Text}
    (hpersist : t.persistSession now id title planMode status planData = .ok t') :
    ∃ s, db.sessions.find id = some s ∧ Shows { db with
      sessions := db.sessions.update (fun s => decide (s.id = id))
        (SessionRecord.persisted now title planMode status planData)
        (SessionRecord.persisted_id now title planMode status planData) } t' := by
  obtain ⟨-, -, hfound, hsessions⟩ := persistSession_ok hpersist
  obtain ⟨row, hrow, hid⟩ := hfound
  have hfind : (db.sessions.find id).isSome = true := by
    have hrow' := Table.find_eq_some.mpr ⟨hrow, hid⟩
    rw [h.find] at hrow'
    exact Option.isSome_iff_exists.mpr ((Option.map_eq_some_iff.mp hrow').imp fun _ h => h.1)
  obtain ⟨s, hs⟩ := Option.isSome_iff_exists.mp hfind
  refine ⟨s, hs, ?_, ?_⟩
  · rw [hsessions]
    refine update_rows_map ?_ ?_ h.sessions ?_ ?_ <;> exact fun _ => rfl
  · rw [persistSession_projects hpersist]
    exact h.projects

theorem checkpoint_shows {first : FirstRow} (h : Shows db t) {request : PersistCheckpointRequest}
    {n : ℕ} (hok : t.appendHistoryCheckpoint now request = .ok (n, t')) :
    Shows (run (Directory.step first) db (TranscriptOp.writes (.checkpoint now request))) t' := by
  obtain ⟨-, -, t₁, t₂, hrun, hmessages, hpersist⟩ := appendHistoryCheckpoint_ok hok
  obtain ⟨-, -, hsessions, hprojects⟩ := checkpointRun_ok hrun
  obtain ⟨-, -, hsessions', hprojects'⟩ := insertMessages_ok hmessages
  have h₂ : Shows db t₂ :=
    ⟨by rw [hsessions', hsessions, h.sessions], by rw [hprojects', hprojects, h.projects]⟩
  obtain ⟨s, hs, hwritten⟩ := h₂.persistSession hpersist
  simpa only [TranscriptOp.writes, run_cons, run_nil, Directory.step, Directory.persistSession, hs,
    Bool.false_and] using hwritten

theorem persist_shows {first : FirstRow} (h : Shows db t) {request : PersistRunRequest}
    {result : PersistRunResult} (hok : t.persistRun now request = .ok (result, t')) :
    Shows (run (Directory.step first) db (TranscriptOp.writes (.persist now request))) t' := by
  obtain ⟨session, t₁, _, t₂, t₃, hsession, -, -, hrun, -, hmessages, hpersist, rfl, -⟩ :=
    persistRun_ok hok
  obtain ⟨-, -, hsessions⟩ := terminateRun_ok hrun
  obtain ⟨-, -, hsessions', hprojects'⟩ := insertMessages_ok hmessages
  have h₂ : Shows db t₂ := ⟨by rw [hsessions', hsessions, h.sessions],
    by rw [hprojects', terminateRun_projects hrun, h.projects]⟩
  obtain ⟨s, hs, hwritten⟩ := h₂.persistSession hpersist
  have hrow : session = s.toSessionRow := by
    rw [h.find, hs] at hsession
    exact (Option.some.inj hsession).symm
  have hid : s.id = request.sessionId := (Table.find_eq_some.mp hs).2
  simp only [TranscriptOp.writes, run_cons, run_nil, Directory.step, Directory.persistSession, hs,
    Bool.true_and, SessionDb.touchProject, hrow, hid]
  cases s.discoverable with
  | false => exact hwritten
  | true =>
    cases s.projectId with
    | none => exact hwritten
    | some projectId => exact hwritten.namedLast request.sessionId projectId

end

/-- The transcript only writes into sessions. -/
theorem mem_writes {ops : List TranscriptOp} {op : DirectoryOp}
    (hop : op ∈ ops.flatMap TranscriptOp.writes) : ∃ now id title planMode status planData ended,
      op = .persistSession now id title planMode status planData ended := by
  obtain ⟨source, -, hop⟩ := List.mem_flatMap.mp hop
  cases source with
  | checkpoint => exact ⟨_, _, _, _, _, _, _, List.mem_singleton.mp hop⟩
  | persist => exact ⟨_, _, _, _, _, _, _, List.mem_singleton.mp hop⟩
  | restart => cases hop

theorem shows_run {first : FirstRow} {db : Directory} {t : SessionDb} (h : Shows db t)
    {ops : List TranscriptOp} (hops : ∀ now, .restart now ∉ ops) :
    ∃ written : List DirectoryOp, List.Sublist written (ops.flatMap TranscriptOp.writes) ∧
      Shows (run (Directory.step first) db written) (run transcriptStep t ops) := by
  induction ops generalizing db t with
  | nil => exact ⟨[], List.Sublist.refl _, h⟩
  | cons op ops ih =>
    have hrest : ∀ now, .restart now ∉ ops :=
      fun now hmem => hops now (List.mem_cons_of_mem _ hmem)
    have hstep : ∃ written, List.Sublist written op.writes ∧
        Shows (run (Directory.step first) db written) (transcriptStep t op) := by
      cases op with
      | checkpoint now request =>
        cases hok : t.appendHistoryCheckpoint now request with
        | error e => exact ⟨[], List.nil_sublist _, by simpa [transcriptStep, hok, attempt] using h⟩
        | ok result =>
          refine ⟨_, List.Sublist.refl _, ?_⟩
          simpa [transcriptStep, hok, attempt] using checkpoint_shows h hok
      | persist now request =>
        cases hok : t.persistRun now request with
        | error e => exact ⟨[], List.nil_sublist _, by simpa [transcriptStep, hok, attempt] using h⟩
        | ok result =>
          refine ⟨_, List.Sublist.refl _, ?_⟩
          simpa [transcriptStep, hok, attempt] using persist_shows h hok
      | restart now => exact absurd (List.mem_cons_self) (hops now)
    obtain ⟨written, hsub, hshows⟩ := hstep
    obtain ⟨written', hsub', hshows'⟩ := ih hshows hrest
    refine ⟨written ++ written', hsub.append hsub', ?_⟩
    rwa [run_append]

/-- As long as the server runs, the transcript and the directory agree on sessions and projects:
what the transactions of the transcript write there is a run of the directory, in which every
session keeps its project and its bot. -/
theorem transcript_shown (first : FirstRow) {db : Directory} {t : SessionDb} (h : Shows db t)
    (ops : List TranscriptOp) (hops : ∀ now, .restart now ∉ ops) :
    ∃ written : List DirectoryOp, List.Sublist written (ops.flatMap TranscriptOp.writes) ∧
      Shows (run (Directory.step first) db written) (run transcriptStep t ops) ∧
      ∀ s ∈ db.sessions.rows, ∃ s' ∈ (run (Directory.step first) db written).sessions.rows,
        s'.id = s.id ∧ s'.projectId = s.projectId ∧ s'.botId = s.botId := by
  obtain ⟨written, hsub, hshows⟩ := shows_run h hops
  have hwrites : ∀ op ∈ written, ∃ now id title planMode status planData ended,
      op = .persistSession now id title planMode status planData ended :=
    fun op hop => mem_writes (hsub.subset hop)
  refine ⟨written, hsub, hshows, fun s hs => ?_⟩
  have hkept : .deleteSession s.id ∉ written := by
    intro hmem
    obtain ⟨_, _, _, _, _, _, _, heq⟩ := hwrites _ hmem
    cases heq
  obtain ⟨s', hs', hid, hproject, hbot⟩ := Directory.session_run hs hkept
  refine ⟨s', hs', hid, hproject.resolve_right ?_, hbot.resolve_right ?_⟩
  · intro hmoved
    obtain ⟨-, _, _, hmem, -⟩ := hmoved
    obtain ⟨_, _, _, _, _, _, _, heq⟩ := hwrites _ hmem
    cases heq
  · intro hmoved
    obtain ⟨-, _, hmem, -⟩ := hmoved
    obtain ⟨_, _, _, _, _, _, _, heq⟩ := hwrites _ hmem
    cases heq

/-- A session without a project, in both views. -/
def oneSession : Directory :=
  { sessions := ⟨[{ id := "s1".toList, title := none, workspace := "/w".toList, model := none
                    projectId := none, botId := none, createdAt := "t0".toList
                    updatedAt := "t0".toList }], by decide⟩ }

def emptyTranscript : SessionDb :=
  { sessions := ⟨[{ id := "s1".toList, title := none, projectId := none
                    updatedAt := "t0".toList }], by decide⟩
    runs := .empty
    messages := .empty
    projects := .empty }

/-- The first message of the session. -/
def helloCheckpoint : PersistCheckpointRequest :=
  { runId := "r1".toList, sessionId := "s1".toList, frameId := "f1".toList
    taskSummary := "Hello.".toList, planMode := false, status := "processing".toList
    awaiting := none, pendingAskJson := none, planData := none, title := some "Hello.".toList
    startedAt := "t1".toList, expectedCount := 0
    messages := [⟨"user".toList, "Hello.".toList, false⟩] }

theorem transcript_shown_hello : ∃ written : List DirectoryOp,
    List.Sublist written
      ([TranscriptOp.checkpoint "t1".toList helloCheckpoint].flatMap TranscriptOp.writes) ∧
      Shows (run (Directory.step firstInserted) oneSession written)
        (run transcriptStep emptyTranscript [.checkpoint "t1".toList helloCheckpoint]) ∧
      ∀ s ∈ oneSession.sessions.rows,
        ∃ s' ∈ (run (Directory.step firstInserted) oneSession written).sessions.rows,
          s'.id = s.id ∧ s'.projectId = s.projectId ∧ s'.botId = s.botId := by
  have hshows : Shows oneSession emptyTranscript := ⟨rfl, rfl⟩
  exact transcript_shown firstInserted hshows _ (by simp)

end DeepseekScience.Db
