import DeepseekScience.Db.DirectorySteps

/-! Edits of a bot: an edit names the revision that it has read, and goes through only when no
other one came in between. -/
namespace DeepseekScience.Db

open Tables Runs

namespace Directory

/-- How often an operation edits a bot. -/
def edits (db : Directory) (id : Text) : DirectoryOp → ℕ
  | .updateBot now id' expectedRevision u =>
    if id' = id ∧ (db.updateBot now id' expectedRevision u).1.isOk = true then 1 else 0
  | _ => 0

/-- The number of edits of a bot that go through in a run. -/
def editsOf (first : FirstRow) (id : Text) : Directory → List DirectoryOp → ℕ
  | _, [] => 0
  | db, op :: ops => db.edits id op + editsOf first id (db.step first op) ops

/-- The bot is there, so many edits later. -/
def HoldsBot (b : BotRow) (n : ℕ) (db : Directory) : Prop :=
  ∃ b' ∈ db.bots.rows, b'.id = b.id ∧ b'.revision = b.revision + n

variable {db : Directory} {b : BotRow} {first : FirstRow}

theorem HoldsBot.here (hb : b ∈ db.bots.rows) : HoldsBot b 0 db := ⟨b, hb, rfl, by simp⟩

section
/-! One edit. -/

variable {now : Text} {expectedRevision : ℤ} {u : BotUpdate}

theorem updateBot_stale (hb : b ∈ db.bots.rows) (hstale : b.revision ≠ expectedRevision) :
    db.updateBot now b.id expectedRevision u =
      (.error (.conflict ("bot ".toList ++ b.id ++ " revision no longer matches".toList)), db) := by
  have hcount : db.bots.count (isBotAt b.id expectedRevision) = 0 := by
    apply Table.count_eq_zero.mpr
    intro b' hb'
    simp only [isBotAt, decide_eq_false_iff_not, not_and]
    intro hid
    obtain rfl := Table.eq_of_key hb' hb hid
    exact hstale
  have hfind : db.bots.find b.id = some b := Table.find_eq_some.mpr ⟨hb, rfl⟩
  unfold updateBot
  rw [if_pos hcount, hfind]

theorem count_current (hb : b ∈ db.bots.rows) : db.bots.count (isBotAt b.id b.revision) ≠ 0 := by
  intro hcount
  have hnot := Table.count_eq_zero.mp hcount b hb
  simp [isBotAt] at hnot

theorem updateBot_unresolved (hb : b ∈ db.bots.rows)
    (hproject : resolves db.projects u.projectId = false) :
    db.updateBot now b.id b.revision u = (.error .sqlite, db) := by
  unfold updateBot
  simp [count_current hb, hproject]

theorem updateBot_current (hb : b ∈ db.bots.rows)
    (hproject : resolves db.projects u.projectId = true) :
    db.updateBot now b.id b.revision u = (.ok (b.updated now u),
      { db with
        bots := db.bots.update (isBotAt b.id b.revision) (BotRow.updated now u)
          (BotRow.updated_id now u) }) := by
  have hmem := mem_update_of_mem (p := isBotAt b.id b.revision) (BotRow.updated_id now u) hb
  rw [if_pos (by simp [isBotAt])] at hmem
  unfold updateBot
  rw [if_neg (count_current hb), if_pos hproject]
  simp only [requireBot, Table.find_eq_some.mpr ⟨hmem, BotRow.updated_id now u b⟩]

/-- An edit goes through when the bot is at the revision and the project exists. -/
theorem updateBot_isOk (hb : b ∈ db.bots.rows) :
    (db.updateBot now b.id expectedRevision u).1.isOk = true ↔
      b.revision = expectedRevision ∧ resolves db.projects u.projectId = true := by
  by_cases hrevision : b.revision = expectedRevision
  · rw [← hrevision]
    cases hproject : resolves db.projects u.projectId with
    | true => simp [updateBot_current hb hproject, Except.isOk, Except.toBool]
    | false => simp [updateBot_unresolved hb hproject, Except.isOk, Except.toBool]
  · simp [updateBot_stale hb hrevision, hrevision, Except.isOk, Except.toBool]

/-- An edit of another bot. -/
theorem updateBot_other (hb : b ∈ db.bots.rows) {id : Text} (hid : id ≠ b.id) :
    b ∈ (db.updateBot now id expectedRevision u).2.bots.rows := by
  unfold updateBot
  split
  · split <;> exact hb
  split
  · have hmem := mem_update_of_mem (p := isBotAt id expectedRevision) (BotRow.updated_id now u) hb
    rwa [if_neg (by simp [isBotAt, Ne.symm hid])] at hmem
  · exact hb

theorem holdsBot_updateBot (hb : b ∈ db.bots.rows) (id : Text) :
    HoldsBot b (db.edits b.id (.updateBot now id expectedRevision u))
      (db.updateBot now id expectedRevision u).2 := by
  unfold edits
  dsimp only
  by_cases hid : id = b.id
  · rw [hid]
    by_cases hrevision : b.revision = expectedRevision
    · rw [← hrevision]
      cases hproject : resolves db.projects u.projectId with
      | true =>
        have hmem := mem_update_of_mem (p := isBotAt b.id b.revision) (BotRow.updated_id now u) hb
        rw [if_pos (by simp [isBotAt])] at hmem
        rw [if_pos ⟨rfl, (updateBot_isOk hb).mpr ⟨rfl, hproject⟩⟩, updateBot_current hb hproject]
        exact ⟨_, hmem, rfl, rfl⟩
      | false =>
        rw [if_neg (by simp [updateBot_isOk hb, hproject]), updateBot_unresolved hb hproject]
        exact .here hb
    · rw [if_neg (by simp [updateBot_isOk hb, hrevision]), updateBot_stale hb hrevision]
      exact .here hb
  · rw [if_neg (by simp [hid])]
    exact .here (updateBot_other hb hid)

end

section
/-! All operations. -/

theorem holdsBot_dropProject {db₁ : Directory} (hb : b ∈ db₁.bots.rows) (id : Text) :
    HoldsBot b 0 (db₁.dropProject id) := by
  refine ⟨_, mem_setNull_of_mem BotRow.withoutProject_id hb, ?_⟩
  split <;> simp [BotRow.withoutProject]

theorem holdsBot_deleteProject (hb : b ∈ db.bots.rows) (now id : Text) (force : Bool) :
    HoldsBot b 0 (db.deleteProject now id force).2 := by
  obtain hend | ⟨-, ⟨-, hend⟩ | ⟨-, hend⟩⟩ := db.deleteProject_cases now id force
  · rw [hend]
    exact .here hb
  · rw [hend]
    exact holdsBot_dropProject hb id
  · have hmoved : b ∈ ((db.withDefaultProject now).moveSessions id).bots.rows :=
      (db.withDefaultProject_frame now).1 ▸ hb
    rw [hend]
    exact holdsBot_dropProject hmoved id

theorem bot_step (hb : b ∈ db.bots.rows) {op : DirectoryOp} (hop : op ≠ .deleteBot b.id) :
    HoldsBot b (db.edits b.id op) (db.step first op) := by
  have hframe : op.writesBots = false → HoldsBot b 0 (db.step first op) := by
    intro hop
    have heq : (db.step first op).bots = db.bots := (step_frame op).bots_eq hop
    exact .here (heq ▸ hb)
  cases op with
  | deleteProject now id force => exact holdsBot_deleteProject hb now id force
  | createBot =>
    unfold step createBot
    dsimp only
    split
    · split
      · rename_i hinsert
        exact .here (mem_insert_of_mem hinsert hb)
      · exact .here hb
    · exact .here hb
  | updateBot now id expectedRevision u => exact holdsBot_updateBot hb id
  | deleteBot id =>
    unfold step deleteBot
    dsimp only
    split
    · exact .here hb
    exact .here (mem_delete_of_not hb fun heq => hop (by rw [heq]))
  | _ => exact hframe rfl

theorem bot_run {ops : List DirectoryOp} (hb : b ∈ db.bots.rows) (hops : .deleteBot b.id ∉ ops) :
    HoldsBot b (editsOf first b.id db ops) (run (step first) db ops) := by
  induction ops generalizing db b with
  | nil => exact .here hb
  | cons op ops ih =>
    obtain ⟨hop, hrest⟩ := List.ne_and_not_mem_of_not_mem_cons hops
    obtain ⟨b', hb', hid, hrevision⟩ : HoldsBot b (db.edits b.id op) (db.step first op) :=
      bot_step hb (Ne.symm hop)
    rw [← hid] at hrest
    obtain ⟨b'', hb'', hid', hrevision'⟩ := ih hb' hrest
    refine ⟨b'', hb'', hid'.trans hid, ?_⟩
    rw [hid] at hrevision'
    simp only [editsOf]
    push_cast
    omega

/-- A bot that stays is, behind every run, so many revisions further as edits of it went through.
So an edit that names the revision read before the run goes through exactly when none did (and its
project exists); otherwise it is refused and changes nothing. -/
theorem bot_edits (first : FirstRow) (db : Directory) (ops : List DirectoryOp) :
    (∀ b ∈ db.bots.rows, .deleteBot b.id ∉ ops →
      HoldsBot b (editsOf first b.id db ops) (run (step first) db ops)) ∧
    ∀ b ∈ db.bots.rows, .deleteBot b.id ∉ ops → ∀ now u,
      (editsOf first b.id db ops = 0 →
        ((run (step first) db ops).updateBot now b.id b.revision u).1.isOk =
          resolves (run (step first) db ops).projects u.projectId) ∧
      (editsOf first b.id db ops ≠ 0 →
        (run (step first) db ops).updateBot now b.id b.revision u =
          (.error (.conflict ("bot ".toList ++ b.id ++ " revision no longer matches".toList)),
            run (step first) db ops)) := by
  refine ⟨fun b hb hops => bot_run hb hops, fun b hb hops now u => ?_⟩
  obtain ⟨b', hb', hid, hrevision⟩ : HoldsBot b _ (run (step first) db ops) := bot_run hb hops
  rw [← hid] at *
  constructor
  · intro hnone
    have hcurrent : b'.revision = b.revision := by simpa [hnone] using hrevision
    apply Bool.eq_iff_iff.mpr
    rw [updateBot_isOk hb']
    simp [hcurrent]
  · intro hsome
    exact updateBot_stale hb' (by omega)

end

end Directory

end DeepseekScience.Db
