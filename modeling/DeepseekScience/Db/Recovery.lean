import DeepseekScience.Db.Transcript

/-! The recovery when the server starts keeps the transcript of a session that is in shape, also
when it has to renumber the messages of another one. -/
namespace DeepseekScience.Db

open Tables Transactions Runs

/-- The transcript of a session is the same, up to what else its runs say. -/
structure SameTranscript (db db' : SessionDb) (s : Text) : Prop where
  messages : db'.messagesOf s = db.messagesOf s
  owners : db'.messages.rows.map (fun m => (m.runId, m.sessionId)) =
    db.messages.rows.map fun m => (m.runId, m.sessionId)
  runs : ∃ g : RunRow → RunRow, KeepsRun g ∧ db'.runs.rows = db.runs.rows.map g ∧
    ∀ r ∈ db.runsOf s, (g r).startSeq = r.startSeq ∧ (g r).endSeq = r.endSeq

section
variable {db db' db'' : SessionDb} {s : Text}

theorem runsOf_map {g : RunRow → RunRow} (hg : KeepsRun g)
    (h : db'.runs.rows = db.runs.rows.map g) (s : Text) :
    db'.runsOf s = (db.runsOf s).map g := by
  unfold SessionDb.runsOf
  rw [h, List.filter_map]
  congr 1
  refine List.filter_congr fun r _ => ?_
  simp only [Function.comp_apply, hg.sessionId]

namespace SameTranscript

theorem exists_owner (h : SameTranscript db db' s) {m : SessionMessageRow}
    (hm : m ∈ db'.messages.rows) :
    ∃ m₀ ∈ db.messages.rows, m₀.runId = m.runId ∧ m₀.sessionId = m.sessionId := by
  have hmem := List.mem_map_of_mem (f := fun m : SessionMessageRow => (m.runId, m.sessionId)) hm
  rw [h.owners] at hmem
  obtain ⟨m₀, hm₀, heq⟩ := List.mem_map.mp hmem
  exact ⟨m₀, hm₀, (Prod.mk.inj heq).1, (Prod.mk.inj heq).2⟩

theorem foreignKeys (h : SameTranscript db db' s) (hdb : ForeignKeys db) : ForeignKeys db' := by
  obtain ⟨g, hg, hruns, -⟩ := h.runs
  intro m hm runId hid
  obtain ⟨m₀, hm₀, hrun, -⟩ := h.exists_owner hm
  obtain ⟨r, hr, hrid⟩ := hdb m₀ hm₀ runId (hrun.trans hid)
  exact ⟨g r, hruns ▸ List.mem_map_of_mem hr, (hg.runId r).trans hrid⟩

theorem intact (h : SameTranscript db db' s) (hdb : Intact db s) : Intact db' s := by
  obtain ⟨g, hg, hrows, hspans⟩ := h.runs
  have hruns := runsOf_map hg hrows s
  have hmem : ∀ r' ∈ db'.runsOf s, ∃ r ∈ db.runsOf s, g r = r' := by
    intro r' hr'
    rw [hruns] at hr'
    exact List.mem_map.mp hr'
  refine ⟨by rw [h.messages]; exact hdb.seqs, ?_, ?_, ?_, ?_, ?_⟩
  · rw [hruns, List.map_map, List.length_map, ← hdb.ordinals]
    exact List.map_congr_left fun r _ => hg.ordinal r
  · intro m hm
    obtain ⟨r, hr, hid⟩ := hdb.owned m (h.messages ▸ hm)
    exact ⟨g r, hruns ▸ List.mem_map_of_mem hr, by rw [hid, hg.runId]⟩
  · intro r' hr' m hm hmid
    obtain ⟨r, hr, rfl⟩ := hmem r' hr'
    obtain ⟨m₀, hm₀, hrun, hsession⟩ := h.exists_owner hm
    rw [← hsession]
    exact hdb.confined r hr m₀ hm₀ (by rw [hrun, hmid, hg.runId])
  · intro r' hr'
    obtain ⟨r, hr, rfl⟩ := hmem r' hr'
    have hspan := hdb.spans r hr
    unfold RunRow.Spans at hspan ⊢
    rw [h.messages, hg.runId, (hspans r hr).1, (hspans r hr).2]
    exact hspan
  · intro r₁ hr₁ r₂ hr₂ hlt b hb a ha
    obtain ⟨r, hr, rfl⟩ := hmem r₁ hr₁
    obtain ⟨r', hr', rfl⟩ := hmem r₂ hr₂
    rw [hg.ordinal, hg.ordinal] at hlt
    rw [(hspans r hr).2] at hb
    rw [(hspans r' hr').1] at ha
    exact hdb.increasing r hr r' hr' hlt b hb a ha

theorem trans (h : SameTranscript db db' s) (h' : SameTranscript db' db'' s) :
    SameTranscript db db'' s := by
  obtain ⟨g, hg, hrows, hspans⟩ := h.runs
  obtain ⟨g', hg', hrows', hspans'⟩ := h'.runs
  refine ⟨h'.messages.trans h.messages, h'.owners.trans h.owners, g' ∘ g,
    ⟨fun r => (hg'.runId _).trans (hg.runId r), fun r => (hg'.sessionId _).trans (hg.sessionId r),
      fun r => (hg'.ordinal _).trans (hg.ordinal r)⟩, by rw [hrows', hrows, List.map_map], ?_⟩
  intro r hr
  have hmem : g r ∈ db'.runsOf s := by
    rw [runsOf_map hg hrows]
    exact List.mem_map_of_mem hr
  obtain ⟨ha, hb⟩ := hspans' (g r) hmem
  obtain ⟨ha', hb'⟩ := hspans r hr
  exact ⟨ha.trans ha', hb.trans hb'⟩

theorem refl (db : SessionDb) (s : Text) : SameTranscript db db s :=
  ⟨rfl, rfl, id, ⟨fun _ => rfl, fun _ => rfl, fun _ => rfl⟩, (List.map_id _).symm,
    fun _ _ => ⟨rfl, rfl⟩⟩

end SameTranscript

/-! Renumbering. -/

/-- A message behind a sequence of renumberings. -/
def renumber (pairs : List (ℤ × ℤ)) (m : SessionMessageRow) : SessionMessageRow :=
  pairs.foldl (fun m p => if m.id = p.1 then { m with seq := p.2 } else m) m

theorem renumber_cons (p : ℤ × ℤ) (pairs : List (ℤ × ℤ)) (m : SessionMessageRow) :
    renumber (p :: pairs) m = renumber pairs (if m.id = p.1 then { m with seq := p.2 } else m) :=
  rfl

theorem renumber_eq (pairs : List (ℤ × ℤ)) (m : SessionMessageRow) :
    renumber pairs m = { m with seq := (renumber pairs m).seq } := by
  induction pairs generalizing m with
  | nil => rfl
  | cons p pairs ih =>
    rw [renumber_cons]
    split_ifs
    · exact ih _
    · exact ih m

theorem renumber_sessionId (pairs : List (ℤ × ℤ)) (m : SessionMessageRow) :
    (renumber pairs m).sessionId = m.sessionId := by rw [renumber_eq]

theorem renumber_runId (pairs : List (ℤ × ℤ)) (m : SessionMessageRow) :
    (renumber pairs m).runId = m.runId := by rw [renumber_eq]

/-- A message that no renumbering names keeps its number. -/
theorem renumber_of_notMem {pairs : List (ℤ × ℤ)} {m : SessionMessageRow}
    (h : m.id ∉ pairs.map Prod.fst) : renumber pairs m = m := by
  induction pairs with
  | nil => rfl
  | cons p pairs ih =>
    rw [List.map_cons, List.mem_cons, not_or] at h
    rw [renumber_cons, if_neg h.1]
    exact ih h.2

/-- A message that one renumbering names gets its number. -/
theorem renumber_of_mem {pairs : List (ℤ × ℤ)} {m : SessionMessageRow} {q : ℤ}
    (hnodup : (pairs.map Prod.fst).Nodup) (h : (m.id, q) ∈ pairs) :
    renumber pairs m = { m with seq := q } := by
  induction pairs generalizing m with
  | nil => exact absurd h List.not_mem_nil
  | cons p pairs ih =>
    rw [List.map_cons, List.nodup_cons] at hnodup
    rw [renumber_cons]
    rcases List.mem_cons.mp h with rfl | h
    · rw [if_pos rfl]
      exact renumber_of_notMem hnodup.1
    · have hne : m.id ≠ p.1 := fun heq => hnodup.1 (heq ▸ List.mem_map_of_mem h)
      rw [if_neg hne]
      exact ih hnodup.2 h

theorem foldl_setSeq (pairs : List (ℤ × ℤ)) (db : SessionDb) :
    (pairs.foldl (fun db p => db.setSeq p.1 p.2) db).messages.rows =
        db.messages.rows.map (renumber pairs) ∧
      (pairs.foldl (fun db p => db.setSeq p.1 p.2) db).runs = db.runs := by
  induction pairs generalizing db with
  | nil => exact ⟨(List.map_id _).symm, rfl⟩
  | cons p pairs ih =>
    obtain ⟨hrows, hruns⟩ := ih (db.setSeq p.1 p.2)
    refine ⟨?_, hruns⟩
    rw [List.foldl_cons, hrows]
    simp only [SessionDb.setSeq, Table.update, List.map_map, decide_eq_true_eq]
    exact List.map_congr_left fun m _ => rfl

theorem resequenced_ids (current : Option Text) (nextSeq : ℤ) (l : List SessionMessageRow) :
    (SessionDb.resequenced current nextSeq l).map Prod.fst = l.map (·.id) := by
  induction l generalizing current nextSeq with
  | nil => rfl
  | cons m rest ih => rw [SessionDb.resequenced, List.map_cons, ih, List.map_cons]

/-- Messages of one session that are numbered on from the last number given to the session get
the numbers that they have, by induction on the messages in the order of their sessions. -/
theorem resequenced_of_consecutive {l : List SessionMessageRow} {current : Option Text}
    {nextSeq : ℤ} (base : ℤ) (k : ℕ) (hsorted : l.Pairwise fun a b => a.sessionId ≤ b.sessionId)
    (hcurrent : ∀ c ∈ current, ∀ m ∈ l, c ≤ m.sessionId)
    (hbase : base = if current = some s then nextSeq else 0)
    (hseqs : ((l.filter fun m => decide (m.sessionId = s)).map (·.seq)) =
      (List.range k).map fun i : ℕ => base + (i + 1))
    {m : SessionMessageRow} (hm : m ∈ l) (hs : m.sessionId = s) :
    (m.id, m.seq) ∈ SessionDb.resequenced current nextSeq l := by
  induction l generalizing current nextSeq base k with
  | nil => exact absurd hm List.not_mem_nil
  | cons m₀ rest ih =>
    rw [List.pairwise_cons] at hsorted
    rw [SessionDb.resequenced]
    by_cases hs₀ : m₀.sessionId = s
    · rw [List.filter_cons_of_pos (by simpa using hs₀), List.map_cons] at hseqs
      cases k with
      | zero => exact absurd hseqs (by simp)
      | succ k =>
        rw [List.range_succ_eq_map, List.map_cons, List.map_map, List.cons.injEq] at hseqs
        obtain ⟨hseq, hrest⟩ := hseqs
        have hnew : (if current = some m₀.sessionId then nextSeq + 1 else 1) = base + 1 := by
          rw [hbase, hs₀]
          split_ifs <;> rfl
        rw [hnew]
        rcases List.mem_cons.mp hm with rfl | hm
        · rw [hseq]
          exact List.mem_cons_self ..
        · refine List.mem_cons_of_mem _ (ih (base + 1) k hsorted.2 (fun c hc => ?_) ?_ ?_ hm)
          · rw [← Option.mem_some_iff.mp hc]
            exact hsorted.1
          · rw [hs₀, if_pos rfl]
          · rw [hrest]
            refine List.map_congr_left fun i _ => ?_
            simp only [Function.comp_apply, Nat.cast_succ]
            omega
    · have hmem : m ∈ rest := by
        rcases List.mem_cons.mp hm with rfl | hm
        · exact absurd hs hs₀
        · exact hm
      rw [List.filter_cons_of_neg (by simpa using hs₀)] at hseqs
      -- the session has not begun yet, since its messages would stand together
      have hnot : current ≠ some s := by
        intro hc
        have hle := hcurrent s hc m₀ (List.mem_cons_self ..)
        have hge := hsorted.1 m hmem
        rw [hs] at hge
        exact hs₀ (le_antisymm hge hle)
      rw [if_neg hnot] at hbase
      refine List.mem_cons_of_mem _ (ih base k hsorted.2 (fun c hc => ?_) ?_ hseqs hmem)
      · rw [← Option.mem_some_iff.mp hc]
        exact hsorted.1
      · rw [hbase, if_neg]
        simpa using hs₀

/-! The repair. -/

/-- The messages in the order in which the repair numbers them. -/
def orderedMessages (db : SessionDb) : List SessionMessageRow :=
  db.messages.rows.insertionSort fun a b =>
    toLex (a.sessionId, toLex (a.seq, a.id)) ≤ toLex (b.sessionId, toLex (b.seq, b.id))

theorem orderedMessages_perm (db : SessionDb) :
    (orderedMessages db).Perm db.messages.rows := List.perm_insertionSort _ _

theorem orderedMessages_sorted (db : SessionDb) : (orderedMessages db).Pairwise fun a b =>
    toLex (a.sessionId, toLex (a.seq, a.id)) ≤ toLex (b.sessionId, toLex (b.seq, b.id)) := by
  have : Std.Total fun a b : SessionMessageRow =>
      toLex (a.sessionId, toLex (a.seq, a.id)) ≤ toLex (b.sessionId, toLex (b.seq, b.id)) :=
    ⟨fun a b => le_total _ _⟩
  have : IsTrans SessionMessageRow fun a b =>
      toLex (a.sessionId, toLex (a.seq, a.id)) ≤ toLex (b.sessionId, toLex (b.seq, b.id)) :=
    ⟨fun _ _ _ => le_trans⟩
  exact List.pairwise_insertionSort _ _

/-- In the order of the repair the messages of a session in shape are numbered from one. -/
theorem Intact.orderedSeqs (h : Intact db s) :
    ((orderedMessages db).filter fun m => decide (m.sessionId = s)).map (·.seq) =
      oneTo (db.messagesOf s).length := by
  have hperm : (((orderedMessages db).filter fun m => decide (m.sessionId = s)).map
      (·.seq)).Perm (oneTo (db.messagesOf s).length) := by
    rw [← h.seqs]
    exact ((orderedMessages_perm db).filter _).map _
  refine hperm.eq_of_pairwise' ?_ ((pairwise_oneTo _).imp le_of_lt)
  rw [List.pairwise_map]
  refine List.Pairwise.imp_of_mem ?_ ((orderedMessages_sorted db).filter _)
  intro a b ha hb hle
  have hsa : a.sessionId = s := by simpa using (List.mem_filter.mp ha).2
  have hsb : b.sessionId = s := by simpa using (List.mem_filter.mp hb).2
  rw [Prod.Lex.le_iff] at hle
  rcases hle with hlt | ⟨-, hle⟩
  · exact absurd (hsa.trans hsb.symm) (ne_of_lt hlt)
  · rw [Prod.Lex.le_iff] at hle
    rcases hle with hlt | ⟨heq, -⟩
    · exact le_of_lt hlt
    · exact le_of_eq heq

/-- The repair numbers a session in shape as it was. -/
theorem Intact.renumbered (h : Intact db s) {pairs : List (ℤ × ℤ)} {m : SessionMessageRow}
    (hm : m ∈ db.messagesOf s) :
    renumber (SessionDb.resequenced none 0 (orderedMessages db)) (renumber pairs m) = m := by
  obtain ⟨hmem, hs⟩ := mem_messagesOf.mp hm
  have hordered : m ∈ orderedMessages db := (orderedMessages_perm db).mem_iff.mpr hmem
  have hsorted : (orderedMessages db).Pairwise fun a b => a.sessionId ≤ b.sessionId := by
    refine (orderedMessages_sorted db).imp fun {a b} hle => ?_
    rw [Prod.Lex.le_iff] at hle
    rcases hle with hlt | ⟨heq, -⟩
    · exact le_of_lt hlt
    · exact le_of_eq heq
  have hpair : (m.id, m.seq) ∈ SessionDb.resequenced none 0 (orderedMessages db) := by
    apply resequenced_of_consecutive 0 (db.messagesOf s).length hsorted
      (fun c hc => absurd hc (by simp)) (by simp) ?_ hordered hs
    rw [h.orderedSeqs, oneTo]
    simp
  have hnodup : ((SessionDb.resequenced none 0 (orderedMessages db)).map Prod.fst).Nodup := by
    rw [resequenced_ids]
    exact ((orderedMessages_perm db).map _).nodup_iff.mpr db.messages.unique
  rw [renumber_eq pairs]
  exact renumber_of_mem (m := { m with seq := (renumber pairs m).seq }) hnodup hpair

theorem owners_renumber (p q : List (ℤ × ℤ)) (ms : List SessionMessageRow) :
    ((ms.map (renumber p)).map (renumber q)).map (fun m => (m.runId, m.sessionId)) =
      ms.map fun m => (m.runId, m.sessionId) := by
  rw [List.map_map, List.map_map]
  refine List.map_congr_left fun m _ => ?_
  simp only [Function.comp_apply, renumber_sessionId, renumber_runId]

/-- The messages of a session in shape are not renumbered. -/
theorem messagesOf_renumber (h : Intact db s) {pairs : List (ℤ × ℤ)}
    (hrows : db'.messages.rows = (db.messages.rows.map (renumber pairs)).map
      (renumber (SessionDb.resequenced none 0 (orderedMessages db)))) :
    db'.messagesOf s = db.messagesOf s := by
  have hfilter : db'.messagesOf s = (db.messagesOf s).map
      (renumber (SessionDb.resequenced none 0 (orderedMessages db)) ∘ renumber pairs) := by
    unfold SessionDb.messagesOf
    rw [hrows, List.map_map, List.filter_map]
    congr 1
    refine List.filter_congr fun m _ => ?_
    simp only [Function.comp_apply, renumber_sessionId]
  rw [hfilter]
  have hid : (db.messagesOf s).map
      (renumber (SessionDb.resequenced none 0 (orderedMessages db)) ∘ renumber pairs) =
      (db.messagesOf s).map id := List.map_congr_left fun m hm => h.renumbered hm
  rw [hid, List.map_id]

/-- The numbers of the messages of a run in shape, also behind the repair. -/
theorem mem_seqsOwnedBy (h : Intact db s) (hmessages : db'.messagesOf s = db.messagesOf s)
    (howners : db'.messages.rows.map (fun m => (m.runId, m.sessionId)) =
      db.messages.rows.map fun m => (m.runId, m.sessionId)) {r : RunRow} (hr : r ∈ db.runsOf s)
    {x : ℤ} : x ∈ db'.seqsOwnedBy r.runId ↔
      ∃ m ∈ db.messagesOf s, m.runId = some r.runId ∧ m.seq = x := by
  have hmem : x ∈ db'.seqsOwnedBy r.runId ↔
      ∃ m ∈ db'.messages.rows, m.runId = some r.runId ∧ m.seq = x := by
    simp [SessionDb.seqsOwnedBy, and_assoc]
  rw [hmem, ← hmessages]
  constructor
  · rintro ⟨m, hm, hid, hx⟩
    have hpair := List.mem_map_of_mem (f := fun m : SessionMessageRow => (m.runId, m.sessionId)) hm
    rw [howners] at hpair
    obtain ⟨m₀, hm₀, heq⟩ := List.mem_map.mp hpair
    obtain ⟨hrun, hsession⟩ := Prod.mk.inj heq
    refine ⟨m, mem_messagesOf.mpr ⟨hm, ?_⟩, hid, hx⟩
    rw [← hsession]
    exact h.confined r hr m₀ hm₀ (hrun.trans hid)
  · rintro ⟨m, hm, hid, hx⟩
    exact ⟨m, (mem_messagesOf.mp hm).1, hid, hx⟩

theorem sameTranscript_respan (h : Intact db s) (hmessages : db'.messagesOf s = db.messagesOf s)
    (howners : db'.messages.rows.map (fun m => (m.runId, m.sessionId)) =
      db.messages.rows.map fun m => (m.runId, m.sessionId)) (hruns : db'.runs = db.runs) :
    SameTranscript db db'.respanRuns s := by
  refine ⟨hmessages, howners, fun r =>
    if decide (db'.seqsOwnedBy r.runId ≠ []) = true then
      { r with
        startSeq := (db'.seqsOwnedBy r.runId).min?
        endSeq := (db'.seqsOwnedBy r.runId).max? }
    else r, ⟨?_, ?_, ?_⟩, by rw [← hruns]; rfl, ?_⟩
  · intro r
    split_ifs <;> rfl
  · intro r
    split_ifs <;> rfl
  · intro r
    split_ifs <;> rfl
  · intro r hr
    have howned := fun x => mem_seqsOwnedBy h hmessages howners hr (x := x)
    dsimp only
    split_ifs with hempty
    · rcases h.spans r hr with ⟨-, -, hnone⟩ | ⟨a, b, ha, hb, hab, hspan⟩
      · obtain ⟨x, hx⟩ := List.exists_mem_of_ne_nil _ (of_decide_eq_true hempty)
        obtain ⟨m, hm, hid, -⟩ := (howned x).mp hx
        exact absurd hid (hnone m hm)
      · have hiff := fun x => (howned x).trans (hspan x)
        rw [ha, hb]
        constructor
        · rw [List.min?_eq_some_iff]
          exact ⟨(hiff a).mpr ⟨le_refl a, hab⟩, fun x hx => ((hiff x).mp hx).1⟩
        · rw [List.max?_eq_some_iff]
          exact ⟨(hiff b).mpr ⟨hab, le_refl b⟩, fun x hx => ((hiff x).mp hx).2⟩
    · exact ⟨rfl, rfl⟩

theorem sameTranscript_repair (h : Intact db s) :
    SameTranscript db db.repairDuplicateMessageSequences s := by
  unfold SessionDb.repairDuplicateMessageSequences
  split_ifs with hvalid
  · exact SameTranscript.refl db s
  · have hfirst := foldl_setSeq ((orderedMessages db).map fun m => (m.id, -m.id)) db
    rw [List.foldl_map] at hfirst
    have hsecond := foldl_setSeq (SessionDb.resequenced none 0 (orderedMessages db))
      ((orderedMessages db).foldl (fun db m => db.setSeq m.id (-m.id)) db)
    rw [hfirst.1, hfirst.2] at hsecond
    obtain ⟨hrows, hruns⟩ := hsecond
    exact sameTranscript_respan h (messagesOf_renumber h hrows)
      ((congrArg _ hrows).trans (owners_renumber _ _ db.messages.rows)) hruns

theorem sameTranscript_migrations (h : Intact db s) (now : Text) :
    SameTranscript db (db.applyMigrations now) s := by
  have hfirst : SameTranscript db
      { db with
        sessions := db.sessions.update (fun r => decide (r.status = "processing".toList))
          (fun r => { r with status := "interrupted".toList }) fun _ => rfl
        runs := (db.runs.update
          (fun r => decide (r.completedAt = none ∧ r.status = "processing".toList))
          (RunRow.interrupted now) fun _ => rfl).update
          (fun r => decide (r.completedAt = none) && likeAwaiting r.status)
          (RunRow.awaited now) fun _ => rfl } s := by
    refine ⟨rfl, rfl, _, ⟨?_, ?_, ?_⟩, List.map_map, fun r _ => ?_⟩
    · intro r
      simp only [Function.comp_apply]
      split_ifs <;> rfl
    · intro r
      simp only [Function.comp_apply]
      split_ifs <;> rfl
    · intro r
      simp only [Function.comp_apply]
      split_ifs <;> rfl
    · simp only [Function.comp_apply]
      split_ifs <;> exact ⟨rfl, rfl⟩
  exact hfirst.trans (sameTranscript_repair (hfirst.intact h))

end
/-! Histories of transactions and restarts. -/

inductive TranscriptOp where
  | checkpoint (now : Text) (request : PersistCheckpointRequest)
  | persist (now : Text) (request : PersistRunRequest)
  | restart (now : Text)

def transcriptStep (db : SessionDb) : TranscriptOp → SessionDb
  | .checkpoint now request => (attempt (db.appendHistoryCheckpoint now request) db).2
  | .persist now request => (attempt (db.persistRun now request) db).2
  | .restart now => db.applyMigrations now

/-- The transaction is refused. -/
def Rejected (db : SessionDb) : TranscriptOp → Prop
  | .checkpoint now request => ∃ e, db.appendHistoryCheckpoint now request = .error e
  | .persist now request => ∃ e, db.persistRun now request = .error e
  | .restart _ => False

/-- The messages that an operation stores for a session, with their run. -/
def stores (s : Text) (db : SessionDb) : TranscriptOp → List (Option Text × PersistMessage)
  | .checkpoint now request =>
    match db.appendHistoryCheckpoint now request with
    | .ok _ => if request.sessionId = s then request.messages.map fun m => (some request.runId, m)
      else []
    | .error _ => []
  | .persist now request =>
    match db.persistRun now request with
    | .ok _ => if request.sessionId = s then request.messages.map fun m => (some request.runId, m)
      else []
    | .error _ => []
  | .restart _ => []

/-- The messages that a history stores for a session. -/
def stored (s : Text) : SessionDb → List TranscriptOp → List (Option Text × PersistMessage)
  | _, [] => []
  | db, op :: ops => stores s db op ++ stored s (transcriptStep db op) ops

/-- The messages of a session as they are listed, with their run. -/
def transcript (s : Text) (db : SessionDb) : List (Option Text × PersistMessage) :=
  (db.listMessages s).map fun m => (m.runId, m.message)

section
variable {db db' : SessionDb} {s : Text}

theorem Intact.listMessages (h : Intact db s) : db.listMessages s = db.messagesOf s := by
  unfold SessionDb.listMessages
  apply List.Pairwise.insertionSort_eq
  have hsorted := pairwise_oneTo (db.messagesOf s).length
  rw [← h.seqs, List.pairwise_map] at hsorted
  exact hsorted.imp le_of_lt

theorem transcript_eq (h : Intact db s) :
    transcript s db = (db.messagesOf s).map fun m => (m.runId, m.message) := by
  rw [transcript, h.listMessages]

/-- Shape and foreign keys, for every session that had the shape at the start. -/
def InShape (s : Text) (db : SessionDb) : Prop := ForeignKeys db ∧ Intact db s

/-- One accepted transaction, as a session sees it. -/
theorem inShape_extends {now target runId : Text} {ms : List PersistMessage}
    (h : Extends db db' now target runId ms) (hdb : InShape s db) :
    InShape s db' ∧ transcript s db' =
      transcript s db ++ if target = s then ms.map fun m => (some runId, m) else [] := by
  have hkeys := h.foreignKeys hdb.1
  split_ifs with hs
  · subst hs
    have hshape := Intact.extends h hdb.2 hdb.1
    refine ⟨⟨hkeys, hshape⟩, ?_⟩
    rw [transcript_eq hshape, transcript_eq hdb.2, h.messagesOf, List.map_append,
      numbered_messages]
  · have hshape := Intact.extends_ne h hs hdb.2
    refine ⟨⟨hkeys, hshape⟩, ?_⟩
    rw [transcript_eq hshape, transcript_eq hdb.2, h.messagesOf_ne hs, List.append_nil]

theorem inShape_step (h : InShape s db) (op : TranscriptOp) :
    InShape s (transcriptStep db op) ∧
      transcript s (transcriptStep db op) = transcript s db ++ stores s db op := by
  cases op with
  | checkpoint now request =>
    simp only [transcriptStep, stores, attempt]
    rcases hr : db.appendHistoryCheckpoint now request with e | ⟨n, db'⟩
    · exact ⟨h, (List.append_nil _).symm⟩
    · exact inShape_extends (appendHistoryCheckpoint_extends hr) h
  | persist now request =>
    simp only [transcriptStep, stores, attempt]
    rcases hr : db.persistRun now request with e | ⟨result, db'⟩
    · exact ⟨h, (List.append_nil _).symm⟩
    · exact inShape_extends (persistRun_extends h.1 hr) h
  | restart now =>
    have hsame := sameTranscript_migrations h.2 now
    have hshape := hsame.intact h.2
    refine ⟨⟨hsame.foreignKeys h.1, hshape⟩, ?_⟩
    have hstep : transcript s (db.applyMigrations now) = transcript s db := by
      rw [transcript_eq hshape, transcript_eq h.2, hsame.messages]
    exact hstep.trans (List.append_nil _).symm

/-- The listed messages are what the history has stored, in its order. -/
theorem transcript_run (h : InShape s db) (ops : List TranscriptOp) :
    transcript s (run transcriptStep db ops) = transcript s db ++ stored s db ops := by
  induction ops generalizing db with
  | nil => exact (List.append_nil _).symm
  | cons op ops ih =>
    obtain ⟨hshape, hstep⟩ := inShape_step h op
    rw [run_cons, ih hshape, hstep, stored, List.append_assoc]

theorem rejected_changesNothing (op : TranscriptOp) (h : Rejected db op) :
    transcriptStep db op = db := by
  cases op with
  | checkpoint now request =>
    obtain ⟨e, he⟩ := h
    simp only [transcriptStep, attempt, he]
  | persist now request =>
    obtain ⟨e, he⟩ := h
    simp only [transcriptStep, attempt, he]
  | restart now => exact h.elim

theorem inShape_empty (hkeys : ForeignKeys db) (hmessages : db.messagesOf s = [])
    (hruns : db.runsOf s = []) : InShape s db := by
  refine ⟨hkeys, by simp [hmessages, oneTo], by simp [hruns, oneTo], ?_, ?_, ?_, ?_⟩
  · simp [hmessages]
  · simp [hruns]
  · simp [hruns]
  · simp [hruns]

/-- A session that begins empty keeps a transcript in shape through every history of
transactions and restarts: its messages are what the accepted transactions have appended, numbered
from one, and each run claims exactly the numbers of its messages. -/
theorem transcript_durable (db : SessionDb) (s : Text) (hkeys : ForeignKeys db)
    (hmessages : db.messagesOf s = []) (hruns : db.runsOf s = []) (ops : List TranscriptOp) :
    Always transcriptStep (fun db => Intact db s) db ops ∧
      transcript s (run transcriptStep db ops) = stored s db ops ∧
      AllSteps transcriptStep (fun db op => Rejected db op → transcriptStep db op = db) db ops := by
  have hdb : InShape s db := inShape_empty hkeys hmessages hruns
  refine ⟨?_, ?_, allSteps_of_forall fun db op => rejected_changesNothing op⟩
  · have hstep : ∀ db op, InShape s db → True → InShape s (transcriptStep db op) :=
      fun db op h _ => (inShape_step h op).1
    exact always_of_guarded hstep (fun db h => h.2) hdb allSteps_true
  · have hempty : transcript s db = [] := by
      rw [transcript_eq hdb.2, hmessages]
      rfl
    rw [transcript_run hdb, hempty, List.nil_append]

end

/-- A database with one session that has not run yet. -/
def freshDb : SessionDb where
  sessions := ⟨[{ id := "s1".toList, title := none, projectId := none, updatedAt := [] }], by simp⟩
  runs := Table.empty
  messages := Table.empty
  projects := Table.empty

def sampleCheckpoint (expectedCount : ℕ) (messages : List PersistMessage) :
    PersistCheckpointRequest where
  runId := "r1".toList
  sessionId := "s1".toList
  frameId := "frame".toList
  taskSummary := []
  planMode := false
  status := "processing".toList
  awaiting := none
  pendingAskJson := none
  planData := none
  title := none
  startedAt := []
  expectedCount := expectedCount
  messages := messages

/-- Two checkpoints, a crash, and a checkpoint that comes too late. -/
theorem transcript_durable_crash :
    let message : PersistMessage := ⟨"user".toList, "hello".toList, false⟩
    let ops := [.checkpoint [] (sampleCheckpoint 0 [message]),
      .checkpoint [] (sampleCheckpoint 1 [message, message]), .restart [],
      .checkpoint [] (sampleCheckpoint 3 [message])]
    Always transcriptStep (fun db => Intact db "s1".toList) freshDb ops ∧
      transcript "s1".toList (run transcriptStep freshDb ops) =
        stored "s1".toList freshDb ops ∧
      (stored "s1".toList freshDb ops).length = 3 := by
  intro message ops
  have h := transcript_durable freshDb "s1".toList (fun m hm => absurd hm List.not_mem_nil) rfl rfl
    ops
  exact ⟨h.1, h.2.1, by decide +kernel⟩

end DeepseekScience.Db
