import DeepseekScience.Db.BotJobs
import DeepseekScience.Db.Sessions
import DeepseekScience.Lib.References

/-! Projects, bots, sessions and the jobs of bots (dss-db, `repo.rs`), with the foreign keys between
them: a deleted project leaves its bots without one, a deleted bot its sessions, and jobs go with
their bot or their session. -/
namespace DeepseekScience.Db

open Tables Transactions

/-- A project, with the columns that the transcript does not read. -/
structure Project extends ProjectRow where
  name : Text
  description : Option Text := none
  agentContext : Option Text := none
  archived : Bool := false
  createdAt : Text
  deriving DecidableEq

structure BotRow where
  id : Text
  name : Text
  role : Text
  instructions : Text
  avatar : Text
  color : Text
  projectId : Option Text
  model : Option Text
  thinkingEnabled : Option Bool := none
  thinkingEffort : Option Text := none
  enabled : Bool := true
  revision : ℤ := 1
  createdAt : Text
  updatedAt : Text
  deriving DecidableEq

/-- A session, with the columns that the transcript does not read. -/
structure SessionRecord extends SessionRow where
  workspace : Text
  model : Option Text
  botId : Option Text
  createdAt : Text
  deriving DecidableEq

/-! The assignments of the `UPDATE` statements, and of the actions on a deletion. -/

def BotRow.withoutProject (b : BotRow) : BotRow := { b with projectId := none }

def SessionRecord.withoutProject (s : SessionRecord) : SessionRecord := { s with projectId := none }

def SessionRecord.withoutBot (s : SessionRecord) : SessionRecord := { s with botId := none }

def SessionRecord.inProject (projectId : Text) (s : SessionRecord) : SessionRecord :=
  { s with projectId := some projectId }

def SessionRecord.persisted (now : Text) (title : Option Text) (planMode : Bool) (status : Text)
    (planData : Option Text) (s : SessionRecord) : SessionRecord :=
  { s with toSessionRow := s.toSessionRow.persisted now title planMode status planData }

theorem BotRow.withoutProject_id (b : BotRow) : b.withoutProject.id = b.id := rfl

theorem SessionRecord.withoutProject_id (s : SessionRecord) : s.withoutProject.id = s.id := rfl

theorem SessionRecord.inProject_id (projectId : Text) (s : SessionRecord) :
    (s.inProject projectId).id = s.id := rfl

theorem SessionRecord.persisted_id (now : Text) (title : Option Text) (planMode : Bool)
    (status : Text) (planData : Option Text) (s : SessionRecord) :
    (s.persisted now title planMode status planData).id = s.id := rfl

theorem SessionRecord.withoutBot_id (s : SessionRecord) : s.withoutBot.id = s.id := rfl

structure Directory where
  projects : Table fun p : Project => p.id := .empty
  bots : Table BotRow.id := .empty
  sessions : Table fun s : SessionRecord => s.id := .empty
  jobs : BotJobs := .empty

def defaultProjectId : Text := "proj_default".toList

/-- What an edit of a bot sets. -/
structure BotUpdate where
  name : Text
  role : Text
  instructions : Text
  avatar : Text
  color : Text
  projectId : Option Text
  model : Option Text
  thinkingEnabled : Option Bool
  thinkingEffort : Option Text
  enabled : Bool

def BotRow.updated (now : Text) (u : BotUpdate) (b : BotRow) : BotRow :=
  { b with
    name := u.name
    role := u.role
    instructions := u.instructions
    avatar := u.avatar
    color := u.color
    projectId := u.projectId
    model := u.model
    thinkingEnabled := u.thinkingEnabled
    thinkingEffort := u.thinkingEffort
    enabled := u.enabled
    revision := b.revision + 1
    updatedAt := now }

theorem BotRow.updated_id (now : Text) (u : BotUpdate) (b : BotRow) : (b.updated now u).id = b.id :=
  rfl

/-- The assignments to the columns of one session that nothing else depends on. -/
inductive SessionSet where
  | title (title : Text)
  | status (status : Text)
  | touch
  | plan (planData : Option Text)
  | planAndStatus (planData : Option Text) (status : Text)

def SessionSet.apply (now : Text) (r : SessionRow) : SessionSet → SessionRow
  | .title t => { r with title := some t, updatedAt := now }
  | .status s => r.withStatus now s
  | .touch => { r with updatedAt := now }
  | .plan p => r.withPlan now p
  | .planAndStatus p s => { r with planData := p, status := s, updatedAt := now }

@[simp] theorem SessionSet.apply_id (now : Text) (r : SessionRow) (set : SessionSet) :
    (set.apply now r).id = r.id := by
  cases set <;> rfl

@[simp] theorem SessionSet.apply_projectId (now : Text) (r : SessionRow) (set : SessionSet) :
    (set.apply now r).projectId = r.projectId := by
  cases set <;> rfl

@[simp] theorem SessionSet.apply_discoverable (now : Text) (r : SessionRow) (set : SessionSet) :
    (set.apply now r).discoverable = r.discoverable := by
  cases set <;> rfl

/-- `ORDER BY updated_at DESC, id ASC`. -/
def recentKey (s : SessionRecord) : Textᵒᵈ ×ₗ Text := toLex (OrderDual.toDual s.updatedAt, s.id)

instance decidableRecent : DecidableRel fun a b : SessionRecord => recentKey a ≤ recentKey b :=
  fun a b => LinearOrder.toDecidableLE (recentKey a) (recentKey b)

namespace Directory

variable (db : Directory)

section
/-! Projects. -/

def requireProject (id : Text) : Except DbError Project :=
  match db.projects.find id with
  | some p => .ok p
  | none => .error (.notFound ("project ".toList ++ id))

/-- `INSERT OR IGNORE`. -/
def withDefaultProject (now : Text) : Directory :=
  match db.projects.insert
      { id := defaultProjectId, name := "Default".toList, description := some "默认项目".toList
        createdAt := now, updatedAt := now } with
  | some projects => { db with projects := projects }
  | none => db

def ensureDefaultProject (now : Text) : Except DbError Project × Directory :=
  let db := db.withDefaultProject now
  match db.projects.find defaultProjectId with
  | some p => (.ok p, db)
  | none => (.error (.other "default project missing".toList), db)

def createProject (now freshId name : Text) (description agentContext : Option Text) :
    Except DbError Project × Directory :=
  let row : Project :=
    { id := freshId, name, description, agentContext, createdAt := now, updatedAt := now }
  match db.projects.insert row with
  | some projects => (.ok row, { db with projects := projects })
  | none => (.error .sqlite, db)

/-- One of the `UPDATE` statements of an edit; a value that is not given stays. -/
def patchProject (now id : Text) (value : Option Text) (set : Text → Project → Project)
    (hset : ∀ v p, (set v p).id = p.id) : Directory :=
  match value with
  | none => db
  | some v =>
    { db with
      projects := db.projects.update (fun p => decide (p.id = id))
        (fun p => { set v p with updatedAt := now }) fun p => hset v p }

def patchedProject (now id : Text) (name description agentContext lastSessionId : Option Text) :
    Directory :=
  let db := db.patchProject now id name (fun n p => { p with name := n }) fun _ _ => rfl
  let db := db.patchProject now id description (fun d p => { p with description := some d })
    fun _ _ => rfl
  let db := db.patchProject now id agentContext (fun c p => { p with agentContext := some c })
    fun _ _ => rfl
  db.patchProject now id lastSessionId (fun s p => { p with lastSessionId := some s })
    fun _ _ => rfl

def updateProject (now id : Text) (name description agentContext lastSessionId : Option Text) :
    Except DbError Project × Directory :=
  let db := db.patchedProject now id name description agentContext lastSessionId
  (db.requireProject id, db)

def setProjectArchived (now id : Text) (archived : Bool) : Except DbError Project × Directory :=
  if id = defaultProjectId then
    (.error (.conflict "default project cannot be archived".toList), db)
  else
    let db := { db with
      projects := db.projects.update (fun p => decide (p.id = id))
        (fun p => { p with archived := archived, updatedAt := now }) fun _ => rfl }
    (db.requireProject id, db)

/-- `DELETE`, with what it does to the rows that refer to the project. -/
def dropProject (id : Text) : Directory :=
  { db with
    projects := db.projects.delete fun p => decide (p.id = id)
    bots := setNull db.bots BotRow.projectId id BotRow.withoutProject BotRow.withoutProject_id
    sessions := setNull db.sessions (fun s => s.projectId) id SessionRecord.withoutProject
      SessionRecord.withoutProject_id }

/-- The sessions of a project go to the default one. -/
def moveSessions (id : Text) : Directory :=
  { db with
    sessions := db.sessions.update (fun s => decide (s.projectId = some id))
      (SessionRecord.inProject defaultProjectId) (SessionRecord.inProject_id defaultProjectId) }

def deleteProject (now id : Text) (force : Bool) : Except DbError Unit × Directory :=
  if id = defaultProjectId then
    (.error (.conflict "default project cannot be deleted".toList), db)
  else
    attempt (do
      let count := db.sessions.count fun s => decide (s.projectId = some id)
      ensure (count = 0 ∨ force = true) (.conflict ("project ".toList ++ id ++ " has ".toList ++
        (toString count).toList ++ " session(s); pass force=true to delete".toList))
      let db := if count = 0 then db else (db.withDefaultProject now).moveSessions id
      ensure ((db.projects.find id).isSome = true) (.notFound ("project ".toList ++ id))
      pure ((), db.dropProject id)) db

end

section
/-! Bots. -/

def requireBot (id : Text) : Except DbError BotRow :=
  match db.bots.find id with
  | some b => .ok b
  | none => .error (.notFound ("bot ".toList ++ id))

def createBot (now freshId name role instructions avatar color : Text)
    (projectId model : Option Text) : Except DbError BotRow × Directory :=
  let row : BotRow :=
    { id := freshId, name, role, instructions, avatar, color, projectId, model
      createdAt := now, updatedAt := now }
  if resolves db.projects projectId then
    match db.bots.insert row with
    | some bots => (.ok row, { db with bots := bots })
    | none => (.error .sqlite, db)
  else (.error .sqlite, db)

def isBotAt (id : Text) (expectedRevision : ℤ) (b : BotRow) : Bool :=
  decide (b.id = id ∧ b.revision = expectedRevision)

def updateBot (now id : Text) (expectedRevision : ℤ) (u : BotUpdate) :
    Except DbError BotRow × Directory :=
  if db.bots.count (isBotAt id expectedRevision) = 0 then
    match db.bots.find id with
    | some _ =>
      (.error (.conflict ("bot ".toList ++ id ++ " revision no longer matches".toList)), db)
    | none => (.error (.notFound ("bot ".toList ++ id)), db)
  else if resolves db.projects u.projectId then
    let db := { db with
      bots := db.bots.update (isBotAt id expectedRevision) (BotRow.updated now u)
        (BotRow.updated_id now u) }
    (db.requireBot id, db)
  else (.error .sqlite, db)

def deleteBot (id : Text) : Except DbError Unit × Directory :=
  match db.bots.find id with
  | none => (.error (.notFound ("bot ".toList ++ id)), db)
  | some _ =>
    (.ok (),
      { db with
        bots := db.bots.delete fun b => decide (b.id = id)
        sessions := setNull db.sessions SessionRecord.botId id SessionRecord.withoutBot
          SessionRecord.withoutBot_id
        jobs := cascade db.jobs (fun j => some j.botId) id })

end

section
/-! Sessions. -/

def requireSession (id : Text) : Except DbError SessionRecord :=
  match db.sessions.find id with
  | some s => .ok s
  | none => .error (.notFound ("session ".toList ++ id))

/-- The session that is named last in its project. -/
def namedLast (now id : Text) (projectId : Text) : Directory :=
  { db with
    projects := db.projects.update (fun p => decide (p.id = projectId))
      (fun p => { p with lastSessionId := some id, updatedAt := now }) fun _ => rfl }

def createSessionForBot (now id workspace : Text) (model projectId botId : Option Text) :
    Except DbError SessionRecord × Directory :=
  let row : SessionRecord :=
    { id, title := none, workspace, model, projectId, botId, createdAt := now, updatedAt := now }
  attempt (do
    ensure (resolves db.projects projectId = true ∧ resolves db.bots botId = true) .sqlite
    match db.sessions.insert row with
    | none => .error .sqlite
    | some sessions =>
      let db := { db with sessions := sessions }
      match projectId with
      | none => pure (row, db)
      | some projectId =>
        ensure ((db.projects.find projectId).isSome = true)
          (.notFound ("project ".toList ++ projectId))
        pure (row, db.namedLast now id projectId)) db

def setSession (now id : Text) (set : SessionSet) : Directory :=
  { db with
    sessions := db.sessions.update (fun s => decide (s.id = id))
      (fun s => { s with toSessionRow := set.apply now s.toSessionRow }) fun s =>
        set.apply_id now s.toSessionRow }

/-- What a committed run writes to its session, and to its project when it has ended. -/
def persistSession (now id : Text) (title : Option Text) (planMode : Bool) (status : Text)
    (planData : Option Text) (ended : Bool) : Except DbError Unit × Directory :=
  match db.sessions.find id with
  | none => (.error (.notFound ("session ".toList ++ id)), db)
  | some s =>
    let db := { db with
      sessions := db.sessions.update (fun s => decide (s.id = id))
        (SessionRecord.persisted now title planMode status planData)
        (SessionRecord.persisted_id now title planMode status planData) }
    match ended && s.discoverable, s.projectId with
    | true, some projectId => (.ok (), db.namedLast now id projectId)
    | _, _ => (.ok (), db)

def rebaseSessionWorkspace (id expectedWorkspace newWorkspace : Text) : Bool × Directory :=
  let moved := fun s : SessionRecord => decide (s.id = id ∧ s.workspace = expectedWorkspace)
  (db.sessions.count moved = 1,
    { db with
      sessions := db.sessions.update moved (fun s => { s with workspace := newWorkspace })
        fun _ => rfl })

/-- The session of a project that was used last, apart from one. -/
def replacement (id projectId : Text) : Option Text :=
  (((db.sessions.rows.filter fun s =>
    decide (s.projectId = some projectId ∧ s.discoverable = true ∧ s.id ≠ id)).insertionSort
      fun a b => recentKey a ≤ recentKey b).head?).map fun s => s.id

def setSessionDiscoverable (now id : Text) (discoverable : Bool) :
    Except DbError Unit × Directory :=
  match db.sessions.find id with
  | none => (.error (.notFound ("session ".toList ++ id)), db)
  | some s =>
    let db := { db with
      sessions := db.sessions.update (fun s => decide (s.id = id))
        (fun s => { s with discoverable := discoverable, updatedAt := now }) fun _ => rfl }
    match discoverable, s.projectId with
    | false, some projectId =>
      let replacement := db.replacement id projectId
      (.ok (), { db with
        projects := db.projects.update
          (fun p => decide (p.id = projectId ∧ p.lastSessionId = some id))
          (fun p => { p with lastSessionId := replacement, updatedAt := now }) fun _ => rfl })
    | _, _ => (.ok (), db)

def deleteSession (id : Text) : Except DbError Unit × Directory :=
  match db.sessions.find id with
  | none => (.error (.notFound ("session ".toList ++ id)), db)
  | some _ =>
    (.ok (),
      { db with
        sessions := db.sessions.delete fun s => decide (s.id = id)
        jobs := cascade db.jobs (fun j => some j.sessionId) id })

/-- The sessions that may be found, in no order. -/
def listSessions : List SessionRecord :=
  db.sessions.rows.filter fun s =>
    s.discoverable && (s.projectId.bind db.projects.find).all fun p => !p.archived

/-- The sessions that a project shows, in no order. -/
def getProjectDetail (id : Text) : Except DbError (Project × List SessionRecord) := do
  let p ← db.requireProject id
  pure (p, db.sessions.rows.filter fun s => decide (s.projectId = some id) && s.discoverable)

end

/-- A job may be queued for the bot of its session. -/
def belongs (botId sessionId : Text) : Bool :=
  db.sessions.rows.any fun s => decide (s.id = sessionId ∧ s.botId = some botId)

/-- The operation on the jobs, with what it reads of the sessions. -/
def jobOp : JobOp → JobOp
  | .enqueue now freshId _ requestedId botId sessionId prompt requestedPlanMode =>
    .enqueue now freshId (db.belongs botId sessionId) requestedId botId sessionId prompt
      requestedPlanMode
  | op => op

end Directory

/-- The operations, with the times and generated ids that they use. -/
inductive DirectoryOp where
  | ensureDefaultProject (now : Text)
  | createProject (now freshId name : Text) (description agentContext : Option Text)
  | updateProject (now id : Text) (name description agentContext lastSessionId : Option Text)
  | setProjectArchived (now id : Text) (archived : Bool)
  | deleteProject (now id : Text) (force : Bool)
  | createBot (now freshId name role instructions avatar color : Text)
      (projectId model : Option Text)
  | updateBot (now id : Text) (expectedRevision : ℤ) (update : BotUpdate)
  | deleteBot (id : Text)
  | createSession (now id workspace : Text) (model projectId botId : Option Text)
  | setSession (now id : Text) (set : SessionSet)
  | persistSession (now id : Text) (title : Option Text) (planMode : Bool) (status : Text)
      (planData : Option Text) (ended : Bool)
  | rebaseSessionWorkspace (id expectedWorkspace newWorkspace : Text)
  | setSessionDiscoverable (now id : Text) (discoverable : Bool)
  | deleteSession (id : Text)
  | job (op : JobOp)

/-- The store behind an operation. -/
def Directory.step (first : FirstRow) (db : Directory) : DirectoryOp → Directory
  | .ensureDefaultProject now => (db.ensureDefaultProject now).2
  | .createProject now freshId name description agentContext =>
    (db.createProject now freshId name description agentContext).2
  | .updateProject now id name description agentContext lastSessionId =>
    (db.updateProject now id name description agentContext lastSessionId).2
  | .setProjectArchived now id archived => (db.setProjectArchived now id archived).2
  | .deleteProject now id force => (db.deleteProject now id force).2
  | .createBot now freshId name role instructions avatar color projectId model =>
    (db.createBot now freshId name role instructions avatar color projectId model).2
  | .updateBot now id expectedRevision update => (db.updateBot now id expectedRevision update).2
  | .deleteBot id => (db.deleteBot id).2
  | .createSession now id workspace model projectId botId =>
    (db.createSessionForBot now id workspace model projectId botId).2
  | .setSession now id set => db.setSession now id set
  | .persistSession now id title planMode status planData ended =>
    (db.persistSession now id title planMode status planData ended).2
  | .rebaseSessionWorkspace id expectedWorkspace newWorkspace =>
    (db.rebaseSessionWorkspace id expectedWorkspace newWorkspace).2
  | .setSessionDiscoverable now id discoverable => (db.setSessionDiscoverable now id discoverable).2
  | .deleteSession id => (db.deleteSession id).2
  | .job op => { db with jobs := jobStep first db.jobs (db.jobOp op) }

end DeepseekScience.Db
