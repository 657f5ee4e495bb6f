import DeepseekScience.Db.DirectorySteps

/-! What becomes of a session and of a job in a run: a session goes only when it is deleted itself,
a job also with its bot or its session. -/
namespace DeepseekScience.Db

open Tables Runs

namespace Directory

variable {db : Directory} {first : FirstRow}

section
/-! One operation. -/

variable {s s' : SessionRecord} {j : BotJobRow}

/-- A session may lose its project to the default one, and its bot to none. -/
structure Follows (ops : List DirectoryOp) (s s' : SessionRecord) : Prop where
  id : s'.id = s.id
  project : s'.projectId = s.projectId ∨ s'.projectId = some defaultProjectId ∧
    ∃ now p, .deleteProject now p true ∈ ops ∧ s.projectId = some p
  bot : s'.botId = s.botId ∨ s'.botId = none ∧ ∃ b, .deleteBot b ∈ ops ∧ s.botId = some b

theorem Follows.same {ops : List DirectoryOp} (hid : s'.id = s.id)
    (hproject : s'.projectId = s.projectId) (hbot : s'.botId = s.botId) : Follows ops s s' :=
  ⟨hid, Or.inl hproject, Or.inl hbot⟩

theorem Follows.refl (ops : List DirectoryOp) (s : SessionRecord) : Follows ops s s :=
  .same rfl rfl rfl

/-- The session is there, with what may have become of it. -/
def Finds (ops : List DirectoryOp) (s : SessionRecord) (db : Directory) : Prop :=
  ∃ s' ∈ db.sessions.rows, Follows ops s s'

theorem Finds.same (ops : List DirectoryOp) (hs : s ∈ db.sessions.rows) : Finds ops s db :=
  ⟨s, hs, .refl ops s⟩

/-- An update of sessions that keeps where they belong. -/
theorem finds_update {ops : List DirectoryOp} {p : SessionRecord → Bool}
    {f : SessionRecord → SessionRecord} (hf : ∀ s, (f s).id = s.id) (hs : s ∈ db.sessions.rows)
    (hproject : ∀ s, (f s).projectId = s.projectId) (hbot : ∀ s, (f s).botId = s.botId) :
    Finds ops s { db with sessions := db.sessions.update p f hf } := by
  refine ⟨_, mem_update_of_mem hf hs, ?_⟩
  split
  · exact .same (hf s) (hproject s) (hbot s)
  · exact .refl ops s

theorem deleteProject_session (hs : s ∈ db.sessions.rows) (now id : Text) (force : Bool) :
    Finds [.deleteProject now id force] s (db.deleteProject now id force).2 := by
  obtain hend | ⟨hdefault, ⟨hempty, hend⟩ | ⟨rfl, hend⟩⟩ := db.deleteProject_cases now id force
  · rw [hend]
    exact .same _ hs
  · rw [hend]
    refine ⟨_, mem_setNull_of_mem SessionRecord.withoutProject_id hs, ?_⟩
    rw [if_neg (hempty s hs)]
    exact .refl _ s
  · have hmoved : ∃ s₁ ∈ ((db.withDefaultProject now).moveSessions id).sessions.rows,
        Follows [.deleteProject now id true] s s₁ ∧ s₁.projectId ≠ some id := by
      have hrows := (db.withDefaultProject_frame now).2.1
      refine ⟨_, mem_update_of_mem (SessionRecord.inProject_id defaultProjectId) (hrows ▸ hs), ?_⟩
      split
      · rename_i hmine
        refine ⟨⟨rfl, Or.inr ⟨rfl, now, id, by simp, of_decide_eq_true hmine⟩, Or.inl rfl⟩, ?_⟩
        simpa [SessionRecord.inProject] using Ne.symm hdefault
      · rename_i hmine
        exact ⟨.refl _ s, by simpa using hmine⟩
    obtain ⟨s₁, hs₁, hfollows, hother⟩ := hmoved
    rw [hend]
    refine ⟨_, mem_setNull_of_mem SessionRecord.withoutProject_id hs₁, ?_⟩
    rwa [if_neg hother]

theorem session_step (hs : s ∈ db.sessions.rows) {op : DirectoryOp}
    (hop : op ≠ .deleteSession s.id) : Finds [op] s (db.step first op) := by
  have hsame : Finds [op] s db := .same _ hs
  have hframe : op.writesSessions = false → Finds [op] s (db.step first op) := by
    intro hop
    have heq : (db.step first op).sessions = db.sessions := (step_frame op).sessions_eq hop
    exact .same _ (heq ▸ hs)
  cases op with
  | deleteProject now id force => exact deleteProject_session hs now id force
  | deleteBot id =>
    unfold step deleteBot
    dsimp only
    split
    · exact hsame
    refine ⟨_, mem_setNull_of_mem SessionRecord.withoutBot_id hs, ?_⟩
    split
    · rename_i hbot
      exact ⟨rfl, Or.inl rfl, Or.inr ⟨rfl, id, by simp, hbot⟩⟩
    · exact .refl _ s
  | createSession now id workspace model projectId botId =>
    unfold step
    dsimp only
    obtain hend | ⟨_, _, hinsert, -, -, -, -, hend | ⟨_, -, hend⟩⟩ :=
      db.createSession_cases now id workspace model projectId botId
    · rw [hend]
      exact hsame
    · rw [hend]
      exact .same _ (mem_insert_of_mem hinsert hs)
    · rw [hend]
      exact .same _ (mem_insert_of_mem hinsert hs)
  | setSession now id set =>
    exact finds_update _ hs (fun s => set.apply_projectId now s.toSessionRow) fun _ => rfl
  | persistSession now id title planMode status planData ended =>
    unfold step persistSession
    dsimp only
    split
    · exact hsame
    split <;> exact finds_update (SessionRecord.persisted_id now title planMode status planData) hs
      (fun _ => rfl) fun _ => rfl
  | rebaseSessionWorkspace => exact finds_update _ hs (fun _ => rfl) fun _ => rfl
  | setSessionDiscoverable =>
    unfold step setSessionDiscoverable
    dsimp only
    split
    · exact hsame
    split <;> exact finds_update _ hs (fun _ => rfl) fun _ => rfl
  | deleteSession id =>
    unfold step deleteSession
    dsimp only
    split
    · exact hsame
    exact .same _ (mem_delete_of_not hs fun heq => hop (by rw [heq]))
  | _ => exact hframe rfl

/-- The job is there, with its bot and in its session. -/
def HoldsJob (j : BotJobRow) (db : Directory) : Prop :=
  ∃ j' ∈ db.jobs.rows, j'.id = j.id ∧ j'.botId = j.botId ∧ j'.sessionId = j.sessionId

theorem HoldsJob.here (hj : j ∈ db.jobs.rows) : HoldsJob j db := ⟨j, hj, rfl, rfl, rfl⟩

/-- What would take a job out of the queue. -/
def TakesJob (j : BotJobRow) (op : DirectoryOp) : Prop :=
  op = .deleteBot j.botId ∨ op = .deleteSession j.sessionId ∨
    ∃ revision, op = .job (.delete j.id revision)

theorem jobOp_eq_delete {op : JobOp} {id : Text} {revision : ℤ}
    (h : db.jobOp op = .delete id revision) : op = .delete id revision := by
  cases op with
  | enqueue => cases h
  | _ => exact h

theorem job_step (hj : j ∈ db.jobs.rows) {op : DirectoryOp} (hop : ¬ TakesJob j op) :
    HoldsJob j (db.step first op) := by
  have hsame : HoldsJob j db := .here hj
  have hframe : op.writesJobs = false → HoldsJob j (db.step first op) := by
    intro hop
    have heq : (db.step first op).jobs = db.jobs := (step_frame op).jobs_eq hop
    exact .here (heq ▸ hj)
  cases op with
  | deleteBot id =>
    unfold step deleteBot
    dsimp only
    split
    · exact hsame
    refine .here (mem_delete_of_not hj fun heq => hop (Or.inl ?_))
    rw [Option.some.inj heq]
  | deleteSession id =>
    unfold step deleteSession
    dsimp only
    split
    · exact hsame
    refine .here (mem_delete_of_not hj fun heq => hop (Or.inr (Or.inl ?_)))
    rw [Option.some.inj heq]
  | job op =>
    have hcontinues : ∃ j' ∈ (jobStep first db.jobs (db.jobOp op)).rows, j'.id = j.id := by
      obtain ⟨j', hj', hid, -⟩ | ⟨hdeleted, -⟩ := jobStep_row first hj (db.jobOp op)
      · exact ⟨j', hj', hid⟩
      · obtain ⟨revision, heq⟩ := deletedJob_eq_some hdeleted
        exact absurd (Or.inr (Or.inr ⟨revision, by rw [jobOp_eq_delete heq]⟩)) hop
    obtain ⟨j', hj', hid⟩ := hcontinues
    obtain ⟨j₀, hj₀, hid₀, hbot₀, hsession₀⟩ | ⟨hfresh, -⟩ := jobStep_comes _ hj'
    · obtain rfl : j₀ = j := Table.eq_of_key hj₀ hj (by rw [hid₀, hid])
      exact ⟨j', hj', hid, hbot₀.symm, hsession₀.symm⟩
    · exact absurd hid.symm (hfresh j hj)
  | _ => exact hframe rfl

end

section
/-! Whole runs. -/

variable {s s' s'' : SessionRecord} {j : BotJobRow} {ops ops' : List DirectoryOp}

theorem Follows.trans (h : Follows ops s s') (h' : Follows ops' s' s'') :
    Follows (ops ++ ops') s s'' where
  id := by rw [h'.id, h.id]
  project := by
    obtain hkept | ⟨hdefault, now, p, hop, hp⟩ := h.project
    · obtain hkept' | ⟨hdefault', now, p, hop, hp⟩ := h'.project
      · exact Or.inl (by rw [hkept', hkept])
      · exact Or.inr ⟨hdefault', now, p, by simp [hop], by rw [← hkept, hp]⟩
    · have hstays : s''.projectId = some defaultProjectId := by
        obtain hkept' | ⟨hdefault', -⟩ := h'.project
        · rw [hkept', hdefault]
        · exact hdefault'
      exact Or.inr ⟨hstays, now, p, by simp [hop], hp⟩
  bot := by
    obtain hkept | ⟨hnone, b, hop, hb⟩ := h.bot
    · obtain hkept' | ⟨hnone', b, hop, hb⟩ := h'.bot
      · exact Or.inl (by rw [hkept', hkept])
      · exact Or.inr ⟨hnone', b, by simp [hop], by rw [← hkept, hb]⟩
    · have hstays : s''.botId = none := by
        obtain hkept' | ⟨hnone', -⟩ := h'.bot
        · rw [hkept', hnone]
        · exact hnone'
      exact Or.inr ⟨hstays, b, by simp [hop], hb⟩

theorem session_run (hs : s ∈ db.sessions.rows) (hops : .deleteSession s.id ∉ ops) :
    Finds ops s (run (step first) db ops) := by
  induction ops generalizing db s with
  | nil => exact .same _ hs
  | cons op ops ih =>
    obtain ⟨hop, hrest⟩ := List.ne_and_not_mem_of_not_mem_cons hops
    obtain ⟨s', hs', hfirst⟩ : Finds [op] s (db.step first op) := session_step hs (Ne.symm hop)
    rw [← hfirst.id] at hrest
    obtain ⟨s'', hs'', hlater⟩ := ih hs' hrest
    exact ⟨s'', hs'', hfirst.trans hlater⟩

theorem job_run (hj : j ∈ db.jobs.rows) (hops : ∀ op ∈ ops, ¬ TakesJob j op) :
    HoldsJob j (run (step first) db ops) := by
  induction ops generalizing db j with
  | nil => exact .here hj
  | cons op ops ih =>
    obtain ⟨hop, hrest⟩ := List.forall_mem_cons.mp hops
    obtain ⟨j', hj', hid, hbot, hsession⟩ : HoldsJob j (db.step first op) := job_step hj hop
    have hsame : ∀ op, TakesJob j' op ↔ TakesJob j op := by
      intro op
      unfold TakesJob
      rw [hid, hbot, hsession]
    have hlater : ∀ op ∈ ops, ¬ TakesJob j' op := fun op hop => mt (hsame op).mp (hrest op hop)
    obtain ⟨j'', hj'', hid', hbot', hsession'⟩ := ih hj' hlater
    exact ⟨j'', hj'', hid'.trans hid, hbot'.trans hbot, hsession'.trans hsession⟩

/-- A session goes only when it is deleted itself: the deletion of its project by force leaves it
in the default one, and that of its bot leaves it without. A job goes with its bot or its session,
or by a deletion of its own. -/
theorem members_kept (first : FirstRow) (db : Directory) (ops : List DirectoryOp) :
    (∀ s ∈ db.sessions.rows, .deleteSession s.id ∉ ops → Finds ops s (run (step first) db ops)) ∧
      ∀ j ∈ db.jobs.rows, (∀ op ∈ ops, ¬ TakesJob j op) → HoldsJob j (run (step first) db ops) :=
  ⟨fun _ hs => session_run hs, fun _ hj => job_run hj⟩

end

end Directory

end DeepseekScience.Db
