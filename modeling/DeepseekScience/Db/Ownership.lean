import DeepseekScience.Db.DirectorySteps

/-! What belongs to what, over every run of the operations: references never dangle, and a job
stands in a session of its bot. -/
namespace DeepseekScience.Db

open Tables Transactions Runs

namespace Directory

variable {db : Directory} {first : FirstRow}

theorem belongs_iff {botId sessionId : Text} : db.belongs botId sessionId = true ↔
    ∃ s ∈ db.sessions.rows, s.id = sessionId ∧ s.botId = some botId := by
  simp [belongs]

/-- What holds between the tables at any time. -/
structure Sound (db : Directory) : Prop where
  sessionProject : References db.sessions (fun s => s.projectId) db.projects
  sessionBot : References db.sessions SessionRecord.botId db.bots
  botProject : References db.bots BotRow.projectId db.projects
  /-- A job stands in a session of its bot. -/
  jobs : ∀ j ∈ db.jobs.rows, db.belongs j.botId j.sessionId = true
  /-- The default project is never archived. -/
  open_default : ∀ p ∈ db.projects.rows, p.id = defaultProjectId → p.archived = false

section
/-! Changes of one table. -/

theorem Sound.projects_grow (h : Sound db) {projects : Table fun p : Project => p.id}
    (hkeys : ∀ p ∈ db.projects.rows, ∃ p' ∈ projects.rows, p'.id = p.id)
    (hopen : ∀ p ∈ projects.rows, p.id = defaultProjectId → p.archived = false) :
    Sound { db with projects := projects } where
  sessionProject := h.sessionProject.grow hkeys
  sessionBot := h.sessionBot
  botProject := h.botProject.grow hkeys
  jobs := h.jobs
  open_default := hopen

theorem Sound.projects_update (h : Sound db) {p : Project → Bool} {f : Project → Project}
    (hf : ∀ p, (f p).id = p.id)
    (hopen : ∀ q, p q = true → (f q).archived = q.archived ∨ q.id ≠ defaultProjectId) :
    Sound { db with projects := db.projects.update p f hf } := by
  apply h.projects_grow (keys_update hf)
  intro q' hq' hid
  obtain ⟨q, hq, rfl⟩ := Table.mem_update.mp hq'
  have hopened := h.open_default q hq
  split at hid
  · rename_i hp
    rw [if_pos hp]
    rw [hf] at hid
    obtain hsame | hother := hopen q hp
    · rw [hsame, hopened hid]
    · exact absurd hid hother
  · rename_i hp
    rw [if_neg hp]
    exact hopened hid

theorem Sound.projects_insert (h : Sound db) {row : Project}
    {projects : Table fun p : Project => p.id} (hinsert : db.projects.insert row = some projects)
    (hopen : row.archived = false) : Sound { db with projects := projects } := by
  apply h.projects_grow (keys_insert hinsert)
  intro p hp hid
  rw [(Table.insert_eq_some hinsert).1] at hp
  obtain hold | hnew := List.mem_append.mp hp
  · exact h.open_default p hold hid
  · rw [List.mem_singleton.mp hnew, hopen]

theorem Sound.sessions_update (h : Sound db) {p : SessionRecord → Bool}
    {f : SessionRecord → SessionRecord} (hf : ∀ s, (f s).id = s.id)
    (hproject : ∀ s ∈ db.sessions.rows, p s = true →
      (f s).projectId = s.projectId ∨ resolves db.projects (f s).projectId = true)
    (hbot : ∀ s, (f s).botId = s.botId) :
    Sound { db with sessions := db.sessions.update p f hf } where
  sessionProject := h.sessionProject.update hf hproject
  sessionBot := h.sessionBot.update hf fun s _ _ => Or.inl (hbot s)
  botProject := h.botProject
  jobs := by
    intro j hj
    obtain ⟨s, hs, hid, hjob⟩ := belongs_iff.mp (h.jobs j hj)
    refine belongs_iff.mpr ⟨_, mem_update_of_mem hf hs, ?_⟩
    split
    · exact ⟨by rw [hf, hid], by rw [hbot, hjob]⟩
    · exact ⟨hid, hjob⟩
  open_default := h.open_default

theorem Sound.sessions_insert (h : Sound db) {row : SessionRecord}
    {sessions : Table fun s : SessionRecord => s.id}
    (hinsert : db.sessions.insert row = some sessions)
    (hproject : resolves db.projects row.projectId = true)
    (hbot : resolves db.bots row.botId = true) : Sound { db with sessions := sessions } where
  sessionProject := h.sessionProject.insert hinsert hproject
  sessionBot := h.sessionBot.insert hinsert hbot
  botProject := h.botProject
  jobs := by
    intro j hj
    obtain ⟨s, hs, hjob⟩ := belongs_iff.mp (h.jobs j hj)
    exact belongs_iff.mpr ⟨s, mem_insert_of_mem hinsert hs, hjob⟩
  open_default := h.open_default

end

section
/-! The operations. -/

variable {now id : Text}

theorem Sound.withDefaultProject (h : Sound db) (now : Text) :
    Sound (db.withDefaultProject now) := by
  unfold Directory.withDefaultProject
  split
  · rename_i hinsert
    exact h.projects_insert hinsert rfl
  · exact h

theorem withDefaultProject_resolves (db : Directory) (now : Text) :
    resolves (db.withDefaultProject now).projects (some defaultProjectId) = true := by
  unfold Directory.withDefaultProject
  split
  · rename_i hinsert
    rw [resolves_some, (Table.insert_eq_some hinsert).1]
    exact ⟨_, List.mem_append_right _ (List.mem_singleton_self _), rfl⟩
  · rename_i hnone
    exact Option.isSome_iff_ne_none.mpr (Table.insert_eq_none.mp hnone)

theorem Sound.ensureDefaultProject (h : Sound db) (now : Text) :
    Sound (db.ensureDefaultProject now).2 := by
  unfold Directory.ensureDefaultProject
  dsimp only
  split <;> exact h.withDefaultProject now

theorem Sound.createProject (h : Sound db) (now freshId name : Text)
    (description agentContext : Option Text) :
    Sound (db.createProject now freshId name description agentContext).2 := by
  unfold Directory.createProject
  dsimp only
  split
  · rename_i hinsert
    exact h.projects_insert hinsert rfl
  · exact h

theorem Sound.patchProject (h : Sound db) (now id : Text) (value : Option Text)
    {set : Text → Project → Project} (hset : ∀ v p, (set v p).id = p.id)
    (harchived : ∀ v p, (set v p).archived = p.archived) :
    Sound (db.patchProject now id value set hset) := by
  unfold Directory.patchProject
  split
  · exact h
  · exact h.projects_update _ fun p _ => Or.inl (harchived _ p)

theorem Sound.patchedProject (h : Sound db) (now id : Text)
    (name description agentContext lastSessionId : Option Text) :
    Sound (db.patchedProject now id name description agentContext lastSessionId) := by
  apply Sound.patchProject
  · apply Sound.patchProject
    · apply Sound.patchProject
      · apply Sound.patchProject h
        exact fun _ _ => rfl
      · exact fun _ _ => rfl
    · exact fun _ _ => rfl
  · exact fun _ _ => rfl

theorem Sound.setProjectArchived (h : Sound db) (now id : Text) (archived : Bool) :
    Sound (db.setProjectArchived now id archived).2 := by
  unfold Directory.setProjectArchived
  split
  · exact h
  · rename_i hid
    apply h.projects_update
    intro p hp
    rw [of_decide_eq_true hp]
    exact Or.inr hid

theorem Sound.dropProject (h : Sound db) (id : Text) : Sound (db.dropProject id) where
  sessionProject := h.sessionProject.setNull SessionRecord.withoutProject_id fun _ => rfl
  sessionBot := (h.sessionBot.setNull_other SessionRecord.withoutProject_id fun _ => rfl).grow
    (keys_update BotRow.withoutProject_id)
  botProject := h.botProject.setNull BotRow.withoutProject_id fun _ => rfl
  jobs := by
    intro j hj
    obtain ⟨s, hs, hid, hjob⟩ := belongs_iff.mp (h.jobs j hj)
    refine belongs_iff.mpr ⟨_, mem_setNull_of_mem SessionRecord.withoutProject_id hs, ?_⟩
    split <;> exact ⟨hid, hjob⟩
  open_default := fun p hp => h.open_default p (Table.mem_delete.mp hp).1

theorem Sound.moveSessions (h : Sound db)
    (hdefault : resolves db.projects (some defaultProjectId) = true) (id : Text) :
    Sound (db.moveSessions id) :=
  h.sessions_update _ (fun _ _ _ => Or.inr hdefault) fun _ => rfl

theorem Sound.deleteProject (h : Sound db) (now id : Text) (force : Bool) :
    Sound (db.deleteProject now id force).2 := by
  obtain hend | ⟨-, ⟨-, hend⟩ | ⟨-, hend⟩⟩ := db.deleteProject_cases now id force
  · rwa [hend]
  · rw [hend]
    exact h.dropProject id
  · have hmoved := (h.withDefaultProject now).moveSessions (withDefaultProject_resolves db now) id
    rw [hend]
    exact hmoved.dropProject id

theorem Sound.createBot (h : Sound db) (now freshId name role instructions avatar color : Text)
    (projectId model : Option Text) :
    Sound (db.createBot now freshId name role instructions avatar color projectId model).2 := by
  unfold Directory.createBot
  dsimp only
  split
  · rename_i hresolves
    split
    · rename_i hinsert
      exact ⟨h.sessionProject, h.sessionBot.grow (keys_insert hinsert),
        h.botProject.insert hinsert hresolves, h.jobs, h.open_default⟩
    · exact h
  · exact h

theorem Sound.updateBot (h : Sound db) (now id : Text) (expectedRevision : ℤ) (u : BotUpdate) :
    Sound (db.updateBot now id expectedRevision u).2 := by
  unfold Directory.updateBot
  split
  · split <;> exact h
  split
  · rename_i hresolves
    have hid := BotRow.updated_id now u
    exact ⟨h.sessionProject, h.sessionBot.grow (keys_update hid),
      h.botProject.update hid fun _ _ _ => Or.inr hresolves, h.jobs, h.open_default⟩
  · exact h

theorem Sound.deleteBot (h : Sound db) (id : Text) : Sound (db.deleteBot id).2 := by
  unfold Directory.deleteBot
  split
  · exact h
  refine ⟨h.sessionProject.setNull_other SessionRecord.withoutBot_id fun _ => rfl,
    h.sessionBot.setNull SessionRecord.withoutBot_id fun _ => rfl, h.botProject.delete, ?_,
    h.open_default⟩
  intro j hj
  obtain ⟨hj, hbot⟩ := Table.mem_delete.mp hj
  obtain ⟨s, hs, hid, hjob⟩ := belongs_iff.mp (h.jobs j hj)
  refine belongs_iff.mpr ⟨_, mem_setNull_of_mem SessionRecord.withoutBot_id hs, ?_⟩
  simp_all

theorem Sound.namedLast (h : Sound db) (now id projectId : Text) :
    Sound (db.namedLast now id projectId) :=
  h.projects_update _ fun _ _ => Or.inl rfl

theorem Sound.createSessionForBot (h : Sound db) (now id workspace : Text)
    (model projectId botId : Option Text) :
    Sound (db.createSessionForBot now id workspace model projectId botId).2 := by
  obtain hend | ⟨row, sessions, hinsert, -, -, hproject, hbot, hend⟩ :=
    db.createSession_cases now id workspace model projectId botId
  · rwa [hend]
  have hinserted := h.sessions_insert hinsert hproject hbot
  obtain hend | ⟨p, -, hend⟩ := hend
  · rwa [hend]
  · rw [hend]
    exact hinserted.namedLast now id p

theorem Sound.setSession (h : Sound db) (now id : Text) (set : SessionSet) :
    Sound (db.setSession now id set) :=
  h.sessions_update _ (fun s _ _ => Or.inl (set.apply_projectId now s.toSessionRow)) fun _ => rfl

theorem Sound.persistSession (h : Sound db) (now id : Text) (title : Option Text) (planMode : Bool)
    (status : Text) (planData : Option Text) (ended : Bool) :
    Sound (db.persistSession now id title planMode status planData ended).2 := by
  unfold Directory.persistSession
  split
  · exact h
  rename_i s _
  have hwritten : Sound { db with
      sessions := db.sessions.update (fun s => decide (s.id = id))
        (SessionRecord.persisted now title planMode status planData)
        (SessionRecord.persisted_id now title planMode status planData) } :=
    h.sessions_update _ (fun _ _ _ => Or.inl rfl) fun _ => rfl
  dsimp only
  split
  · exact hwritten.namedLast ..
  · exact hwritten

theorem Sound.rebaseSessionWorkspace (h : Sound db) (id expectedWorkspace newWorkspace : Text) :
    Sound (db.rebaseSessionWorkspace id expectedWorkspace newWorkspace).2 :=
  h.sessions_update _ (fun _ _ _ => Or.inl rfl) fun _ => rfl

theorem Sound.setSessionDiscoverable (h : Sound db) (now id : Text) (discoverable : Bool) :
    Sound (db.setSessionDiscoverable now id discoverable).2 := by
  unfold Directory.setSessionDiscoverable
  split
  · exact h
  have hset : Sound { db with
      sessions := db.sessions.update (fun s => decide (s.id = id))
        (fun s => { s with discoverable := discoverable, updatedAt := now }) fun _ => rfl } :=
    h.sessions_update _ (fun _ _ _ => Or.inl rfl) fun _ => rfl
  dsimp only
  split
  · exact hset.projects_update _ fun _ _ => Or.inl rfl
  · exact hset

theorem Sound.deleteSession (h : Sound db) (id : Text) : Sound (db.deleteSession id).2 := by
  unfold Directory.deleteSession
  split
  · exact h
  refine ⟨h.sessionProject.delete, h.sessionBot.delete, h.botProject, ?_, h.open_default⟩
  intro j hj
  obtain ⟨hj, hsession⟩ := Table.mem_delete.mp hj
  obtain ⟨s, hs, hid, hjob⟩ := belongs_iff.mp (h.jobs j hj)
  refine belongs_iff.mpr ⟨s, mem_delete_of_not hs ?_, hid, hjob⟩
  simpa [hid] using hsession

theorem Sound.job (h : Sound db) (op : JobOp) :
    Sound { db with jobs := jobStep first db.jobs (db.jobOp op) } where
  sessionProject := h.sessionProject
  sessionBot := h.sessionBot
  botProject := h.botProject
  jobs := by
    intro j hj
    obtain ⟨j₀, hj₀, -, hbot, hsession⟩ | ⟨-, now, freshId, requestedId, prompt, mode, heq⟩ :=
      jobStep_comes (db.jobOp op) hj
    · rw [← hbot, ← hsession]
      exact h.jobs j₀ hj₀
    · cases op with
      | enqueue =>
        simp only [jobOp, JobOp.enqueue.injEq] at heq
        rw [← heq.2.2.2.2.1, ← heq.2.2.2.2.2.1]
        exact heq.2.2.1
      | _ => cases heq
  open_default := h.open_default

theorem Sound.step (h : Sound db) (op : DirectoryOp) : Sound (db.step first op) := by
  cases op with
  | ensureDefaultProject => exact h.ensureDefaultProject ..
  | createProject => exact h.createProject ..
  | updateProject => exact h.patchedProject ..
  | setProjectArchived => exact h.setProjectArchived ..
  | deleteProject => exact h.deleteProject ..
  | createBot => exact h.createBot ..
  | updateBot => exact h.updateBot ..
  | deleteBot => exact h.deleteBot ..
  | createSession => exact h.createSessionForBot ..
  | setSession => exact h.setSession ..
  | persistSession => exact h.persistSession ..
  | rebaseSessionWorkspace => exact h.rebaseSessionWorkspace ..
  | setSessionDiscoverable => exact h.setSessionDiscoverable ..
  | deleteSession => exact h.deleteSession ..
  | job => exact h.job ..

end

section
/-! Whole runs. -/

variable {s : SessionRecord}

theorem sound_start : Sound {} where
  sessionProject := fun _ hs => absurd hs List.not_mem_nil
  sessionBot := fun _ hs => absurd hs List.not_mem_nil
  botProject := fun _ hb => absurd hb List.not_mem_nil
  jobs := fun _ hj => absurd hj List.not_mem_nil
  open_default := fun _ hp => absurd hp List.not_mem_nil

theorem getProjectDetail_of_mem {p : Project} (hp : p ∈ db.projects.rows) :
    db.getProjectDetail p.id = .ok (p, db.sessions.rows.filter fun s =>
      decide (s.projectId = some p.id) && s.discoverable) := by
  have hfind : db.projects.find p.id = some p := Table.find_eq_some.mpr ⟨hp, rfl⟩
  simp only [getProjectDetail, requireProject, hfind]
  rfl

/-- A session that may be found is shown by its project, and listed unless that one is archived. -/
theorem Sound.shown (h : Sound db) (hs : s ∈ db.sessions.rows) (hfound : s.discoverable = true)
    {projectId : Text} (hproject : s.projectId = some projectId) :
    ∃ p shown, db.getProjectDetail projectId = .ok (p, shown) ∧ s ∈ shown ∧
      (s ∈ db.listSessions ↔ p.archived = false) := by
  obtain ⟨p, hp, rfl⟩ := h.sessionProject s hs projectId hproject
  have hfind : db.projects.find p.id = some p := Table.find_eq_some.mpr ⟨hp, rfl⟩
  refine ⟨p, _, getProjectDetail_of_mem hp, ?_, ?_⟩
  · simp [hs, hfound, hproject]
  · simp [listSessions, hs, hfound, hproject, hfind]

/-- Whatever is created, edited and deleted, in any order: no reference dangles, every job stands
in a session of its bot, the default project is never archived, and a session that may be found is
shown by its project and listed unless that one is archived. -/
theorem references_kept (first : FirstRow) (ops : List DirectoryOp) :
    Sound (run (step first) {} ops) ∧ ∀ s ∈ (run (step first) {} ops).sessions.rows,
      s.discoverable = true → ∀ projectId, s.projectId = some projectId →
        ∃ p shown, (run (step first) {} ops).getProjectDetail projectId = .ok (p, shown) ∧
          s ∈ shown ∧ (s ∈ (run (step first) {} ops).listSessions ↔ p.archived = false) := by
  have h : Sound (run (step first) {} ops) :=
    run_invariant (fun _ op h _ => h.step op) sound_start allSteps_true
  exact ⟨h, fun _ hs hfound _ hproject => h.shown hs hfound hproject⟩

end

end Directory

end DeepseekScience.Db
