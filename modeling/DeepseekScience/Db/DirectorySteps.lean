import DeepseekScience.Db.Directory
import DeepseekScience.Db.JobQueue

/-! What one operation on the directory can do: where a job comes from, the ways through the two
transactions, and which tables an operation leaves alone. -/
namespace DeepseekScience.Db

open Tables Transactions

section
/-! The jobs. -/

variable {t : BotJobs} {first : FirstRow} {r' : BotJobRow}

/-- Where a row of the queue comes from. -/
def JobComes (t : BotJobs) (op : JobOp) (r' : BotJobRow) : Prop :=
  (∃ r ∈ t.rows, r.id = r'.id ∧ r.botId = r'.botId ∧ r.sessionId = r'.sessionId) ∨
    (∀ r ∈ t.rows, r.id ≠ r'.id) ∧ ∃ now freshId requestedId prompt mode,
      op = .enqueue now freshId true requestedId r'.botId r'.sessionId prompt mode

theorem jobComes_update {op : JobOp} {p : BotJobRow → Bool} {f : BotJobRow → BotJobRow}
    {hf : ∀ r, (f r).id = r.id} (hr' : r' ∈ (t.update p f hf).rows)
    (hbot : ∀ r, (f r).botId = r.botId) (hsession : ∀ r, (f r).sessionId = r.sessionId) :
    JobComes t op r' := by
  obtain ⟨r, hr, rfl⟩ := Table.mem_update.mp hr'
  refine Or.inl ⟨r, hr, ?_⟩
  split
  · exact ⟨(hf r).symm, (hbot r).symm, (hsession r).symm⟩
  · exact ⟨rfl, rfl, rfl⟩

theorem jobStep_comes (op : JobOp) (hr' : r' ∈ (jobStep first t op).rows) : JobComes t op r' := by
  cases op with
  | enqueue now freshId belongs requestedId botId sessionId prompt mode =>
    unfold jobStep BotJobs.enqueueBotJob at hr'
    dsimp only at hr'
    split at hr'
    · rename_i hbelongs
      split at hr'
      · exact Or.inl ⟨r', hr', rfl, rfl, rfl⟩
      · rename_i t' hinsert
        have hrows : r' ∈ t'.rows := by split at hr' <;> exact hr'
        obtain ⟨happend, hfresh⟩ := Table.insert_eq_some hinsert
        rw [happend] at hrows
        obtain hold | hnew := List.mem_append.mp hrows
        · exact Or.inl ⟨r', hold, rfl, rfl, rfl⟩
        · rw [List.mem_singleton.mp hnew, hbelongs]
          exact Or.inr ⟨hfresh, now, freshId, requestedId, prompt, mode, rfl⟩
    · exact Or.inl ⟨r', hr', rfl, rfl, rfl⟩
  | edit now id revision prompt mode =>
    rw [jobStep_edit] at hr'
    exact jobComes_update hr' (fun _ => rfl) fun _ => rfl
  | delete id revision =>
    rw [jobStep_delete] at hr'
    exact Or.inl ⟨r', (Table.mem_delete.mp hr').1, rfl, rfl, rfl⟩
  | reorder now sessionId orderedIds =>
    unfold jobStep at hr'
    cases hreply : (t.reorderBotJobs now sessionId orderedIds).1 with
    | error e =>
      dsimp only at hr'
      rw [reorder_refused hreply] at hr'
      exact Or.inl ⟨r', hr', rfl, rfl, rfl⟩
    | ok listed =>
      dsimp only at hr'
      rw [(reorder_perm hreply).2] at hr'
      obtain ⟨r, hr, rfl⟩ := List.mem_map.mp hr'
      have hsame := placeAll_same now sessionId orderedIds.zipIdx r
      exact Or.inl ⟨r, hr, hsame.id.symm, hsame.botId.symm, hsame.sessionId.symm⟩
  | claim now id revision runId =>
    rw [jobStep_claim] at hr'
    exact jobComes_update hr' (fun _ => rfl) fun _ => rfl
  | claimNext now sessionId runId =>
    obtain hstep | ⟨next, -, hstep⟩ := jobStep_claimNext t first now sessionId runId
    · rw [hstep] at hr'
      exact Or.inl ⟨r', hr', rfl, rfl, rfl⟩
    · rw [hstep] at hr'
      exact jobComes_update hr' (fun _ => rfl) fun _ => rfl
  | finish now id runId succeeded error =>
    rw [jobStep_finish] at hr'
    exact jobComes_update hr' (fun _ => rfl) fun _ => rfl
  | restart now =>
    have hstep : jobStep first t (.restart now) = t.update (fun r => decide (r.status = .running))
        (BotJobRow.requeued now) (BotJobRow.requeued_id now) := rfl
    rw [hstep] at hr'
    exact jobComes_update hr' (fun _ => rfl) fun _ => rfl

theorem deletedJob_eq_some {op : JobOp} {id : Text} (h : deletedJob t op = some id) :
    ∃ revision, op = .delete id revision := by
  cases op with
  | delete id' revision =>
    unfold deletedJob at h
    dsimp only at h
    split at h
    · exact ⟨revision, by rw [Option.some.inj h]⟩
    · cases h
  | _ => cases h

end

/-- The bots change. -/
def DirectoryOp.writesBots : DirectoryOp → Bool
  | .deleteProject .. | .createBot .. | .updateBot .. | .deleteBot .. => true
  | _ => false

/-- The sessions change. -/
def DirectoryOp.writesSessions : DirectoryOp → Bool
  | .deleteProject .. | .deleteBot .. | .createSession .. | .setSession .. => true
  | .persistSession .. | .rebaseSessionWorkspace .. => true
  | .setSessionDiscoverable .. | .deleteSession .. => true
  | _ => false

/-- The jobs change. -/
def DirectoryOp.writesJobs : DirectoryOp → Bool
  | .deleteBot .. | .deleteSession .. | .job .. => true
  | _ => false

namespace Directory

variable {db : Directory} {first : FirstRow}

section
/-! The transactions. -/

/-- A project is deleted when no session is in it, or by force and behind the move of them. -/
theorem deleteProject_cases (db : Directory) (now id : Text) (force : Bool) :
    (db.deleteProject now id force).2 = db ∨ id ≠ defaultProjectId ∧
      ((∀ s ∈ db.sessions.rows, s.projectId ≠ some id) ∧
          (db.deleteProject now id force).2 = db.dropProject id ∨
        force = true ∧ (db.deleteProject now id force).2 =
          ((db.withDefaultProject now).moveSessions id).dropProject id) := by
  unfold deleteProject
  split
  · exact Or.inl rfl
  rename_i hdefault
  apply attempt_keeps (P := fun db' : Directory => db' = db ∨ id ≠ defaultProjectId ∧
    (_ ∧ db' = db.dropProject id ∨ force = true ∧ db' = _)) (Or.inl rfl)
  intro _ db' htx
  obtain ⟨hforce, htx⟩ := ensure_bind_eq_ok.mp htx
  obtain ⟨-, htx⟩ := ensure_bind_eq_ok.mp htx
  rw [← (Prod.mk.inj (pure_eq_ok.mp htx)).2]
  refine Or.inr ⟨hdefault, ?_⟩
  split
  · rename_i hcount
    exact Or.inl ⟨fun s hs => by simpa using Table.count_eq_zero.mp hcount s hs, rfl⟩
  · rename_i hcount
    exact Or.inr ⟨hforce.resolve_left hcount, rfl⟩

/-- A session that is created refers to a bot and a project that exist. -/
theorem createSession_cases (db : Directory) (now id workspace : Text)
    (model projectId botId : Option Text) :
    (db.createSessionForBot now id workspace model projectId botId).2 = db ∨
      ∃ row sessions, db.sessions.insert row = some sessions ∧ row.id = id ∧
        row.discoverable = true ∧ resolves db.projects row.projectId = true ∧
        resolves db.bots row.botId = true ∧
        ((db.createSessionForBot now id workspace model projectId botId).2 =
            { db with sessions := sessions } ∨
          ∃ p, row.projectId = some p ∧
            (db.createSessionForBot now id workspace model projectId botId).2 =
              ({ db with sessions := sessions } : Directory).namedLast now id p) := by
  unfold createSessionForBot
  apply attempt_keeps (P := fun db' : Directory => db' = db ∨ ∃ row sessions,
    db.sessions.insert row = some sessions ∧ row.id = id ∧ row.discoverable = true ∧
      resolves db.projects row.projectId = true ∧ resolves db.bots row.botId = true ∧
      (db' = { db with sessions := sessions } ∨ ∃ p, row.projectId = some p ∧
        db' = ({ db with sessions := sessions } : Directory).namedLast now id p)) (Or.inl rfl)
  intro _ db' htx
  obtain ⟨⟨hproject, hbot⟩, htx⟩ := ensure_bind_eq_ok.mp htx
  split at htx
  · cases htx
  rename_i sessions hinsert
  refine Or.inr ⟨_, sessions, hinsert, rfl, rfl, hproject, hbot, ?_⟩
  split at htx
  · exact Or.inl (Prod.mk.inj (pure_eq_ok.mp htx)).2.symm
  · obtain ⟨-, htx⟩ := ensure_bind_eq_ok.mp htx
    exact Or.inr ⟨_, rfl, (Prod.mk.inj (pure_eq_ok.mp htx)).2.symm⟩

end

section
/-! The tables that an operation leaves alone. -/

theorem withDefaultProject_frame (db : Directory) (now : Text) :
    (db.withDefaultProject now).bots = db.bots ∧
      (db.withDefaultProject now).sessions = db.sessions ∧
      (db.withDefaultProject now).jobs = db.jobs := by
  unfold withDefaultProject
  split <;> exact ⟨rfl, rfl, rfl⟩

/-- What an operation leaves as it is, the projects apart. -/
structure Frame (op : DirectoryOp) (db db' : Directory) : Prop where
  bots : op.writesBots = true ∨ db'.bots = db.bots
  sessions : op.writesSessions = true ∨ db'.sessions = db.sessions
  jobs : op.writesJobs = true ∨ db'.jobs = db.jobs

section
variable {op : DirectoryOp} {db' : Directory}

theorem Frame.bots_eq (h : Frame op db db') (hop : op.writesBots = false) : db'.bots = db.bots :=
  h.bots.resolve_left (by simp [hop])

theorem Frame.sessions_eq (h : Frame op db db') (hop : op.writesSessions = false) :
    db'.sessions = db.sessions := h.sessions.resolve_left (by simp [hop])

theorem Frame.jobs_eq (h : Frame op db db') (hop : op.writesJobs = false) : db'.jobs = db.jobs :=
  h.jobs.resolve_left (by simp [hop])

/-- An operation that leaves bots and jobs alone. -/
theorem Frame.of_eq (hbots : db'.bots = db.bots)
    (hsessions : op.writesSessions = true ∨ db'.sessions = db.sessions)
    (hjobs : db'.jobs = db.jobs) : Frame op db db' := ⟨Or.inr hbots, hsessions, Or.inr hjobs⟩

end

theorem step_frame (op : DirectoryOp) : Frame op db (db.step first op) := by
  cases op with
  | ensureDefaultProject now =>
    obtain ⟨hbots, hsessions, hjobs⟩ := db.withDefaultProject_frame now
    unfold step ensureDefaultProject
    dsimp only
    split <;> exact .of_eq hbots (Or.inr hsessions) hjobs
  | createProject =>
    unfold step createProject
    dsimp only
    split <;> exact .of_eq rfl (Or.inr rfl) rfl
  | updateProject now id name description agentContext lastSessionId =>
    unfold step updateProject patchedProject patchProject
    dsimp only
    cases name <;> cases description <;> cases agentContext <;> cases lastSessionId <;>
      exact .of_eq rfl (Or.inr rfl) rfl
  | setProjectArchived =>
    unfold step setProjectArchived
    dsimp only
    split <;> exact .of_eq rfl (Or.inr rfl) rfl
  | deleteProject now id force =>
    have hjobs := (db.withDefaultProject_frame now).2.2
    unfold step
    dsimp only
    obtain hend | ⟨-, ⟨-, hend⟩ | ⟨-, hend⟩⟩ := db.deleteProject_cases now id force
    · rw [hend]
      exact ⟨Or.inl rfl, Or.inl rfl, Or.inr rfl⟩
    · rw [hend]
      exact ⟨Or.inl rfl, Or.inl rfl, Or.inr rfl⟩
    · rw [hend]
      exact ⟨Or.inl rfl, Or.inl rfl, Or.inr hjobs⟩
  | createBot =>
    unfold step createBot
    dsimp only
    split
    · split <;> exact ⟨Or.inl rfl, Or.inr rfl, Or.inr rfl⟩
    · exact ⟨Or.inl rfl, Or.inr rfl, Or.inr rfl⟩
  | updateBot =>
    unfold step updateBot
    dsimp only
    split
    · split <;> exact ⟨Or.inl rfl, Or.inr rfl, Or.inr rfl⟩
    · split <;> exact ⟨Or.inl rfl, Or.inr rfl, Or.inr rfl⟩
  | createSession now id workspace model projectId botId =>
    unfold step
    dsimp only
    obtain hend | ⟨_, _, -, -, -, -, -, hend | ⟨_, -, hend⟩⟩ :=
      db.createSession_cases now id workspace model projectId botId
    · rw [hend]
      exact .of_eq rfl (Or.inl rfl) rfl
    · rw [hend]
      exact .of_eq rfl (Or.inl rfl) rfl
    · rw [hend]
      exact .of_eq rfl (Or.inl rfl) rfl
  | setSession => exact .of_eq rfl (Or.inl rfl) rfl
  | persistSession =>
    unfold step persistSession
    dsimp only
    split
    · exact .of_eq rfl (Or.inl rfl) rfl
    split <;> exact .of_eq rfl (Or.inl rfl) rfl
  | rebaseSessionWorkspace => exact .of_eq rfl (Or.inl rfl) rfl
  | setSessionDiscoverable =>
    unfold step setSessionDiscoverable
    dsimp only
    split
    · exact .of_eq rfl (Or.inl rfl) rfl
    split <;> exact .of_eq rfl (Or.inl rfl) rfl
  | deleteBot => exact ⟨Or.inl rfl, Or.inl rfl, Or.inl rfl⟩
  | deleteSession =>
    unfold step deleteSession
    dsimp only
    split <;> exact ⟨Or.inr rfl, Or.inl rfl, Or.inl rfl⟩
  | job => exact ⟨Or.inr rfl, Or.inr rfl, Or.inl rfl⟩

end

end Directory

end DeepseekScience.Db
