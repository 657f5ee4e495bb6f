import DeepseekScience.Db.JobOrder
import DeepseekScience.Db.Ownership

/-! The session that a project names as its last one. It may have been deleted since; but as long
as no new session takes the id of a named one, a named session that is there is shown by its
project. -/
namespace DeepseekScience.Db

open Tables Runs

namespace Directory

/-- A session that a project names, if it is there, belongs to the project and may be found. -/
def NamesOwn (db : Directory) : Prop :=
  ∀ p ∈ db.projects.rows, ∀ s ∈ db.sessions.rows, p.lastSessionId = some s.id →
    s.projectId = some p.id ∧ s.discoverable = true

/-- An edit of a project does not name a session, and a new session takes no id that is named. -/
def NamesApart (db : Directory) : DirectoryOp → Prop
  | .updateProject _ _ _ _ _ lastSessionId => lastSessionId = none
  | .createSession _ id _ _ _ _ => ∀ p ∈ db.projects.rows, p.lastSessionId ≠ some id
  | _ => True

variable {db db' : Directory} {first : FirstRow}

section
/-! Changes of one table. -/

theorem NamesOwn.of_rows (h : NamesOwn db)
    (hprojects : ∀ p' ∈ db'.projects.rows, p'.lastSessionId = none ∨
      ∃ p ∈ db.projects.rows, p.id = p'.id ∧ p.lastSessionId = p'.lastSessionId)
    (hsessions : ∀ s' ∈ db'.sessions.rows, ∃ s ∈ db.sessions.rows, s.id = s'.id ∧
      s.projectId = s'.projectId ∧ (s.discoverable = true → s'.discoverable = true)) :
    NamesOwn db' := by
  intro p' hp' s' hs' hname
  obtain hnone | ⟨p, hp, hid, hlast⟩ := hprojects p' hp'
  · rw [hnone] at hname
    cases hname
  · obtain ⟨s, hs, hsame, hproject, hfound⟩ := hsessions s' hs'
    obtain ⟨hown, hshown⟩ := h p hp s hs (by rw [hlast, hname, hsame])
    exact ⟨by rw [← hproject, hown, hid], hfound hshown⟩

theorem NamesOwn.projects_insert (h : NamesOwn db) {row : Project}
    {projects : Table fun p : Project => p.id} (hinsert : db.projects.insert row = some projects)
    (hlast : row.lastSessionId = none) : NamesOwn { db with projects := projects } := by
  refine h.of_rows (fun p hp => ?_) fun s hs => ⟨s, hs, rfl, rfl, id⟩
  rw [(Table.insert_eq_some hinsert).1] at hp
  obtain hold | hnew := List.mem_append.mp hp
  · exact Or.inr ⟨p, hold, rfl, rfl⟩
  · rw [List.mem_singleton.mp hnew]
    exact Or.inl hlast

theorem NamesOwn.projects_update (h : NamesOwn db) {p : Project → Bool} {f : Project → Project}
    (hf : ∀ p, (f p).id = p.id) (hlast : ∀ p, (f p).lastSessionId = p.lastSessionId) :
    NamesOwn { db with projects := db.projects.update p f hf } := by
  refine h.of_rows (fun q hq => ?_) fun s hs => ⟨s, hs, rfl, rfl, id⟩
  dsimp only at hq
  obtain ⟨q₀, hq₀, rfl⟩ := Table.mem_update.mp hq
  split
  · exact Or.inr ⟨q₀, hq₀, (hf q₀).symm, (hlast q₀).symm⟩
  · exact Or.inr ⟨q₀, hq₀, rfl, rfl⟩

theorem NamesOwn.sessions_update (h : NamesOwn db) {p : SessionRecord → Bool}
    {f : SessionRecord → SessionRecord} (hf : ∀ s, (f s).id = s.id)
    (hproject : ∀ s, (f s).projectId = s.projectId)
    (hfound : ∀ s, s.discoverable = true → (f s).discoverable = true) :
    NamesOwn { db with sessions := db.sessions.update p f hf } := by
  refine h.of_rows (fun q hq => Or.inr ⟨q, hq, rfl, rfl⟩) fun s hs => ?_
  dsimp only at hs
  obtain ⟨s₀, hs₀, rfl⟩ := Table.mem_update.mp hs
  split
  · exact ⟨s₀, hs₀, (hf s₀).symm, (hproject s₀).symm, hfound s₀⟩
  · exact ⟨s₀, hs₀, rfl, rfl, id⟩

/-- A project names one of its own sessions. -/
theorem NamesOwn.namedLast (h : NamesOwn db) {s : SessionRecord} {id projectId : Text}
    (hs : s ∈ db.sessions.rows) (hid : s.id = id) (hproject : s.projectId = some projectId)
    (hfound : s.discoverable = true) (now : Text) : NamesOwn (db.namedLast now id projectId) := by
  unfold Directory.namedLast
  intro p' hp' s' hs' hname
  dsimp only at hp' hs'
  obtain ⟨p, hp, rfl⟩ := Table.mem_update.mp hp'
  split at hname
  · rename_i hnamed
    obtain rfl : s = s' := Table.eq_of_key hs hs' (hid.trans (Option.some.inj hname))
    rw [if_pos hnamed]
    exact ⟨by rw [hproject, ← of_decide_eq_true hnamed], hfound⟩
  · rename_i hother
    rw [if_neg hother]
    exact h p hp s' hs' hname

end

section
/-! The operations. -/

theorem NamesOwn.withDefaultProject (h : NamesOwn db) (now : Text) :
    NamesOwn (db.withDefaultProject now) := by
  unfold Directory.withDefaultProject
  split
  · rename_i hinsert
    exact h.projects_insert hinsert rfl
  · exact h

theorem NamesOwn.patchProject (h : NamesOwn db) (now id : Text) (value : Option Text)
    {set : Text → Project → Project} (hset : ∀ v p, (set v p).id = p.id)
    (hlast : ∀ v p, (set v p).lastSessionId = p.lastSessionId) :
    NamesOwn (db.patchProject now id value set hset) := by
  unfold Directory.patchProject
  split
  · exact h
  · exact h.projects_update _ fun p => hlast _ p

theorem NamesOwn.patchedProject (h : NamesOwn db) (now id : Text)
    (name description agentContext : Option Text) :
    NamesOwn (db.patchedProject now id name description agentContext none) := by
  apply NamesOwn.patchProject
  · apply NamesOwn.patchProject
    · apply NamesOwn.patchProject h
      exact fun _ _ => rfl
    · exact fun _ _ => rfl
  · exact fun _ _ => rfl

/-- The sessions of a project that goes are named by no other one. -/
theorem NamesOwn.dropped (h : NamesOwn db) {id : Text}
    (hprojects : ∀ p ∈ db'.projects.rows, p ∈ db.projects.rows ∧ p.id ≠ id)
    (hsessions : ∀ s ∈ db'.sessions.rows, ∃ s₀ ∈ db.sessions.rows, s₀.id = s.id ∧
      (s₀.projectId ≠ some id → s = s₀)) : NamesOwn db' := by
  intro p hp s hs hname
  obtain ⟨hold, hne⟩ := hprojects p hp
  obtain ⟨s₀, hs₀, hid, hsame⟩ := hsessions s hs
  obtain ⟨hown, hfound⟩ := h p hold s₀ hs₀ (by rw [hid, hname])
  obtain rfl : s = s₀ := hsame (by simpa [hown] using hne)
  exact ⟨hown, hfound⟩

theorem mem_dropProject {p : Project} {id : Text} (hp : p ∈ (db.dropProject id).projects.rows) :
    p ∈ db.projects.rows ∧ p.id ≠ id := by
  unfold Directory.dropProject at hp
  obtain ⟨hp, hne⟩ := Table.mem_delete.mp hp
  exact ⟨hp, of_decide_eq_false hne⟩

theorem session_dropProject {s : SessionRecord} {id : Text}
    (hs : s ∈ (db.dropProject id).sessions.rows) : ∃ s₀ ∈ db.sessions.rows, s₀.id = s.id ∧
      (s₀.projectId ≠ some id → s = s₀) := by
  unfold Directory.dropProject setNull at hs
  dsimp only at hs
  obtain ⟨s₀, hs₀, rfl⟩ := Table.mem_update.mp hs
  refine ⟨s₀, hs₀, ?_, fun hne => if_neg (by simpa using hne)⟩
  split <;> rfl

theorem NamesOwn.deleteProject (h : NamesOwn db) (now id : Text) (force : Bool) :
    NamesOwn (db.deleteProject now id force).2 := by
  obtain hend | ⟨-, ⟨-, hend⟩ | ⟨-, hend⟩⟩ := db.deleteProject_cases now id force
  · rwa [hend]
  · rw [hend]
    exact h.dropped (fun _ => mem_dropProject) fun _ => session_dropProject
  · rw [hend]
    refine (h.withDefaultProject now).dropped (fun _ => mem_dropProject) fun s hs => ?_
    obtain ⟨s₁, hs₁, hid, hsame⟩ := session_dropProject hs
    unfold Directory.moveSessions at hs₁
    dsimp only at hs₁
    obtain ⟨s₀, hs₀, rfl⟩ := Table.mem_update.mp hs₁
    refine ⟨s₀, hs₀, ?_, fun hne => ?_⟩
    · rw [← hid]
      split <;> rfl
    · rw [if_neg (by simpa using hne)] at hsame
      exact hsame hne

theorem NamesOwn.createSessionForBot (h : NamesOwn db) (now id workspace : Text)
    (model projectId botId : Option Text)
    (hfresh : ∀ p ∈ db.projects.rows, p.lastSessionId ≠ some id) :
    NamesOwn (db.createSessionForBot now id workspace model projectId botId).2 := by
  obtain hend | ⟨row, sessions, hinsert, hid, hfound, -, -, hend⟩ :=
    db.createSession_cases now id workspace model projectId botId
  · rwa [hend]
  have hrows := (Table.insert_eq_some hinsert).1
  have hmem : row ∈ sessions.rows := by simp [hrows]
  have hinserted : NamesOwn { db with sessions := sessions } := by
    intro p hp s hs hname
    dsimp only at hs
    rw [hrows] at hs
    obtain hold | hnew := List.mem_append.mp hs
    · exact h p hp s hold hname
    · rw [List.mem_singleton.mp hnew, hid] at hname
      exact absurd hname (hfresh p hp)
  obtain hend | ⟨p, hproject, hend⟩ := hend
  · rwa [hend]
  · rw [hend]
    exact hinserted.namedLast hmem hid hproject hfound now

theorem NamesOwn.persistSession (h : NamesOwn db) (now id : Text) (title : Option Text)
    (planMode : Bool) (status : Text) (planData : Option Text) (ended : Bool) :
    NamesOwn (db.persistSession now id title planMode status planData ended).2 := by
  unfold Directory.persistSession
  split
  · exact h
  rename_i s hfind
  obtain ⟨hs, hid⟩ := Table.find_eq_some.mp hfind
  have hwritten : NamesOwn { db with
      sessions := db.sessions.update (fun s => decide (s.id = id))
        (SessionRecord.persisted now title planMode status planData)
        (SessionRecord.persisted_id now title planMode status planData) } :=
    h.sessions_update _ (fun _ => rfl) fun _ hfound => hfound
  have hmem := mem_update_of_mem (p := fun s : SessionRecord => decide (s.id = id))
    (SessionRecord.persisted_id now title planMode status planData) hs
  rw [if_pos (decide_eq_true hid)] at hmem
  dsimp only
  split
  · rename_i hended hproject
    exact hwritten.namedLast hmem hid hproject (Bool.and_eq_true_iff.mp hended).2 now
  · exact hwritten

/-- The session that is named instead is one of the project that may be found. -/
theorem replacement_eq_some {id projectId r : Text} (h : db.replacement id projectId = some r) :
    ∃ s ∈ db.sessions.rows, s.id = r ∧ s.projectId = some projectId ∧ s.discoverable = true := by
  obtain ⟨s, hhead, rfl⟩ := Option.map_eq_some_iff.mp h
  have hmem := (List.perm_insertionSort _ _).mem_iff.mp (List.mem_of_head? hhead)
  obtain ⟨hs, hp⟩ := List.mem_filter.mp hmem
  obtain ⟨hproject, hfound, -⟩ := of_decide_eq_true hp
  exact ⟨s, hs, rfl, hproject, hfound⟩

theorem NamesOwn.setSessionDiscoverable (h : NamesOwn db) (now id : Text) (discoverable : Bool) :
    NamesOwn (db.setSessionDiscoverable now id discoverable).2 := by
  unfold Directory.setSessionDiscoverable
  split
  · exact h
  rename_i s hfind
  obtain ⟨hs, hid⟩ := Table.find_eq_some.mp hfind
  -- a session that is named keeps its place, unless it is the one that is hidden
  have hother : ∀ p ∈ db.projects.rows, ∀ s' ∈ (db.sessions.update (fun s => decide (s.id = id))
      (fun s => { s with discoverable := discoverable, updatedAt := now }) fun _ => rfl).rows,
      p.lastSessionId = some s'.id → discoverable = true ∨ s.projectId ≠ some p.id ∨ s'.id ≠ id →
      s'.projectId = some p.id ∧ s'.discoverable = true := by
    intro p hp s' hs' hname hcase
    obtain ⟨s₀, hs₀, rfl⟩ := Table.mem_update.mp hs'
    split at hname
    · rename_i hhit
      obtain ⟨hown, hfound⟩ := h p hp s₀ hs₀ hname
      obtain rfl : s₀ = s := Table.eq_of_key hs₀ hs ((of_decide_eq_true hhit).trans hid.symm)
      simp only [hid] at hcase
      simp_all
    · rename_i hmiss
      rw [if_neg hmiss]
      exact h p hp s₀ hs₀ hname
  cases discoverable with
  | true => exact fun p hp s' hs' hname => hother p hp s' hs' hname (Or.inl rfl)
  | false =>
    cases hproject : s.projectId with
    | none =>
      intro p hp s' hs' hname
      exact hother p hp s' hs' hname (Or.inr (Or.inl (by simp [hproject])))
    | some projectId =>
      intro p' hp' s' hs' hname
      dsimp only at hp' hs'
      obtain ⟨p, hp, rfl⟩ := Table.mem_update.mp hp'
      split at hname
      · rename_i hnamed
        obtain ⟨r, hr, hrid, hrproject, hrfound⟩ := replacement_eq_some hname
        obtain rfl : r = s' := Table.eq_of_key hr hs' hrid
        rw [if_pos hnamed]
        exact ⟨by rw [hrproject, (of_decide_eq_true hnamed).1], hrfound⟩
      · rename_i hmiss
        rw [if_neg hmiss]
        apply hother p hp s' hs' hname
        simp only [decide_eq_true_eq, not_and] at hmiss
        by_cases hown : p.id = projectId
        · exact Or.inr (Or.inr fun heq => hmiss hown (by rw [hname, heq]))
        · exact Or.inr (Or.inl (by simpa [hproject] using Ne.symm hown))

theorem NamesOwn.step (h : NamesOwn db) (op : DirectoryOp) (hop : NamesApart db op) :
    NamesOwn (db.step first op) := by
  cases op with
  | ensureDefaultProject now =>
    unfold Directory.step Directory.ensureDefaultProject
    dsimp only
    split <;> exact h.withDefaultProject now
  | createProject =>
    unfold Directory.step Directory.createProject
    dsimp only
    split
    · rename_i hinsert
      exact h.projects_insert hinsert rfl
    · exact h
  | updateProject now id name description agentContext lastSessionId =>
    obtain rfl : lastSessionId = none := hop
    exact h.patchedProject now id name description agentContext
  | setProjectArchived =>
    unfold Directory.step Directory.setProjectArchived
    dsimp only
    split
    · exact h
    · exact h.projects_update _ fun _ => rfl
  | deleteProject now id force => exact h.deleteProject now id force
  | createBot =>
    unfold Directory.step Directory.createBot
    dsimp only
    split
    · split <;> exact h
    · exact h
  | updateBot =>
    unfold Directory.step Directory.updateBot
    dsimp only
    split
    · split <;> exact h
    · split <;> exact h
  | deleteBot =>
    unfold Directory.step Directory.deleteBot
    dsimp only
    split
    · exact h
    · exact h.sessions_update SessionRecord.withoutBot_id (fun _ => rfl) fun _ hfound => hfound
  | createSession now id workspace model projectId botId =>
    exact h.createSessionForBot now id workspace model projectId botId hop
  | setSession now id set =>
    exact h.sessions_update _ (fun s => set.apply_projectId now s.toSessionRow) fun s hs =>
      (set.apply_discoverable now s.toSessionRow).trans hs
  | persistSession => exact h.persistSession _ _ _ _ _ _ _
  | rebaseSessionWorkspace => exact h.sessions_update _ (fun _ => rfl) fun _ hfound => hfound
  | setSessionDiscoverable => exact h.setSessionDiscoverable _ _ _
  | deleteSession =>
    unfold Directory.step Directory.deleteSession
    dsimp only
    split
    · exact h
    · exact fun p hp s hs => h p hp s (Table.mem_delete.mp hs).1
  | job => exact h

end

/-- In every run in which names are given by the store itself, and no new session takes the id of a
named one, the session that a project names is shown by the project, as long as it is there. -/
theorem named_shown (first : FirstRow) (ops : List DirectoryOp)
    (hops : AllSteps (step first) NamesApart {} ops) :
    ∀ p ∈ (run (step first) {} ops).projects.rows,
      ∀ s ∈ (run (step first) {} ops).sessions.rows, p.lastSessionId = some s.id →
        ∃ shown, (run (step first) {} ops).getProjectDetail p.id = .ok (p, shown) ∧ s ∈ shown := by
  intro p hp s hs hname
  have hnames : NamesOwn (run (step first) {} ops) :=
    run_invariant (fun _ op h hop => h.step op hop) (fun _ hp => absurd hp List.not_mem_nil) hops
  obtain ⟨hproject, hfound⟩ := hnames p hp s hs hname
  exact ⟨_, getProjectDetail_of_mem hp, by simp [hs, hproject, hfound]⟩

/-- A session in the default project. -/
def createdOnce : List DirectoryOp :=
  [.ensureDefaultProject "t0".toList,
    .createSession "t1".toList "s1".toList "/w".toList none (some defaultProjectId) none]

def createdProject : Project :=
  { id := defaultProjectId, name := "Default".toList, description := some "默认项目".toList
    lastSessionId := some "s1".toList, createdAt := "t0".toList, updatedAt := "t1".toList }

def createdSession : SessionRecord :=
  { id := "s1".toList, title := none, workspace := "/w".toList, model := none
    projectId := some defaultProjectId, botId := none, createdAt := "t1".toList
    updatedAt := "t1".toList }

theorem named_shown_createdOnce : ∃ shown,
    (run (step firstInserted) {} createdOnce).getProjectDetail createdProject.id =
      .ok (createdProject, shown) ∧ createdSession ∈ shown := by
  have hfresh : AllSteps (step firstInserted) NamesApart {} createdOnce := by
    refine ⟨trivial, fun p hp => ?_, trivial⟩
    rw [List.mem_singleton.mp hp]
    simp
  apply named_shown firstInserted createdOnce hfresh
  · decide +kernel
  · decide +kernel
  · rfl

end Directory

end DeepseekScience.Db
