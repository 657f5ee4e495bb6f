import DeepseekScience.Db.Recovery

/-! The repair of legacy sequence numbers, statement by statement. Where the unique index on
`(session_id, seq)` exists already, every single update has to keep it, also on the way through the
temporary numbers. -/
namespace DeepseekScience.Db

open Tables Transactions Runs

namespace SessionDb

variable (db : SessionDb)

/-- The message with an identifier can take a number under the unique index. -/
def seqFree (id seq : ℤ) : Prop :=
  ∀ m ∈ db.messages.rows, m.id = id → ∀ m' ∈ db.messages.rows,
    m'.sessionId = m.sessionId → m'.seq = seq → m'.id = id

instance decidableSeqFree (id seq : ℤ) : Decidable (db.seqFree id seq) := by
  unfold seqFree
  infer_instance

/-- `UPDATE session_messages SET seq = ?1 WHERE id = ?2`, with or without the unique index. -/
def trySetSeq (indexed : Bool) (id seq : ℤ) : Except DbError SessionDb :=
  if indexed = true → db.seqFree id seq then .ok (db.setSeq id seq) else .error .sqlite

def trySetSeqs (indexed : Bool) : SessionDb → List (ℤ × ℤ) → Except DbError SessionDb
  | db, [] => .ok db
  | db, p :: rest => do
    let db ← db.trySetSeq indexed p.1 p.2
    trySetSeqs indexed db rest

/-- `repair_duplicate_message_sequences`: what fails in the transaction rolls it back. -/
def tryRepair (indexed : Bool) : Except DbError SessionDb :=
  if db.invalidSessionCount = 0 then .ok db
  else do
    let ordered := db.messages.rows.insertionSort fun a b =>
      toLex (a.sessionId, toLex (a.seq, a.id)) ≤ toLex (b.sessionId, toLex (b.seq, b.id))
    let db ← trySetSeqs indexed db (ordered.map fun m => (m.id, -m.id))
    let db ← trySetSeqs indexed db (resequenced none 0 ordered)
    pure db.respanRuns

end SessionDb

/-- The messages of a session in their `(seq, id)` order. -/
def formerOrder (db : SessionDb) (s : Text) : List SessionMessageRow :=
  (db.messagesOf s).insertionSort fun a b => toLex (a.seq, a.id) ≤ toLex (b.seq, b.id)

/-- What the migration promises of the database that it leaves behind. -/
structure Resequenced (db db' : SessionDb) : Prop where
  /-- Only numbers change, and those of a session are one to n in the former order. -/
  messages : ∃ seq : SessionMessageRow → ℤ,
    db'.messages.rows = db.messages.rows.map (fun m => { m with seq := seq m }) ∧
      ∀ s, (formerOrder db s).map seq = oneTo (db.messagesOf s).length
  spans : db.invalidSessionCount ≠ 0 → ∀ r ∈ db'.runs.rows, db'.seqsOwnedBy r.runId ≠ [] →
    r.startSeq = (db'.seqsOwnedBy r.runId).min? ∧ r.endSeq = (db'.seqsOwnedBy r.runId).max?
  /-- Nothing else of a run changes, nor does another table. -/
  runs : db'.runs.rows.map (fun r => { r with startSeq := none, endSeq := none }) =
    db.runs.rows.map fun r => { r with startSeq := none, endSeq := none }
  others : db'.sessions = db.sessions ∧ db'.projects = db.projects ∧
    db'.nextMessageId = db.nextMessageId
  /-- A second run finds nothing to do. -/
  again : ∀ indexed, db'.tryRepair indexed = .ok db'

/-- A later message of a session holds the temporary number of an earlier one. -/
def SeqClash (db : SessionDb) : Prop :=
  ∃ a ∈ db.messages.rows, ∃ b ∈ db.messages.rows,
    a.sessionId = b.sessionId ∧ a.seq < b.seq ∧ b.seq = -a.id

instance decidableSeqClash (db : SessionDb) : Decidable (SeqClash db) := by
  unfold SeqClash
  infer_instance

/-- What the unique index has kept so far. -/
def SeqsDistinct (db : SessionDb) : Prop :=
  db.messages.rows.Pairwise fun a b => a.sessionId = b.sessionId → a.seq ≠ b.seq

instance decidableSeqsDistinct (db : SessionDb) : Decidable (SeqsDistinct db) := by
  unfold SeqsDistinct
  infer_instance

section
variable {db db' : SessionDb} {s : Text} {indexed : Bool}

/-! The updates one after the other. -/

theorem trySetSeq_eq_ok {id seq : ℤ} :
    db.trySetSeq indexed id seq = .ok db' ↔
      (indexed = true → db.seqFree id seq) ∧ db' = db.setSeq id seq := by
  unfold SessionDb.trySetSeq
  split_ifs with h
  · constructor
    · intro he
      exact ⟨h, (Except.ok.inj he).symm⟩
    · rintro ⟨-, rfl⟩
      rfl
  · exact ⟨fun he => absurd he (by simp), fun he => absurd he.1 h⟩

theorem trySetSeqs_eq_ok {pairs : List (ℤ × ℤ)} :
    SessionDb.trySetSeqs indexed db pairs = .ok db' ↔
      AllSteps (fun db p => db.setSeq p.1 p.2)
        (fun db p => indexed = true → db.seqFree p.1 p.2) db pairs ∧
      db' = run (fun db p => db.setSeq p.1 p.2) db pairs := by
  induction pairs generalizing db with
  | nil =>
    simp only [SessionDb.trySetSeqs, AllSteps, true_and, run_nil, Except.ok.injEq, eq_comm]
  | cons p pairs ih =>
    rw [SessionDb.trySetSeqs, bind_eq_ok]
    simp only [AllSteps, run_cons, trySetSeq_eq_ok, ih]
    constructor
    · rintro ⟨_, ⟨hfree, rfl⟩, hrest, hdb⟩
      exact ⟨⟨hfree, hrest⟩, hdb⟩
    · rintro ⟨⟨hfree, hrest⟩, hdb⟩
      exact ⟨_, ⟨hfree, rfl⟩, hrest, hdb⟩

/-- The two rounds of the repair. -/
theorem tryRepair_eq_ok (h : db.invalidSessionCount ≠ 0) :
    db.tryRepair indexed = .ok db' ↔
      AllSteps (fun db p => db.setSeq p.1 p.2) (fun db p => indexed = true → db.seqFree p.1 p.2) db
        ((orderedMessages db).map fun m => (m.id, -m.id)) ∧
      AllSteps (fun db p => db.setSeq p.1 p.2) (fun db p => indexed = true → db.seqFree p.1 p.2)
        (run (fun db p => db.setSeq p.1 p.2) db ((orderedMessages db).map fun m => (m.id, -m.id)))
        (SessionDb.resequenced none 0 (orderedMessages db)) ∧
      db' = db.repairDuplicateMessageSequences := by
  have htotal : db.repairDuplicateMessageSequences =
      (run (fun db p => db.setSeq p.1 p.2)
        (run (fun db p => db.setSeq p.1 p.2) db ((orderedMessages db).map fun m => (m.id, -m.id)))
        (SessionDb.resequenced none 0 (orderedMessages db))).respanRuns := by
    simp only [SessionDb.repairDuplicateMessageSequences, h, if_false, run, List.foldl_map]
    rfl
  unfold SessionDb.tryRepair
  rw [if_neg h, htotal]
  simp only [bind_eq_ok, trySetSeqs_eq_ok, pure_eq_ok]
  constructor
  · rintro ⟨_, ⟨hfirst, rfl⟩, _, ⟨hsecond, rfl⟩, rfl⟩
    exact ⟨hfirst, hsecond, rfl⟩
  · rintro ⟨hfirst, hsecond, rfl⟩
    exact ⟨_, ⟨hfirst, rfl⟩, _, ⟨hsecond, rfl⟩, rfl⟩

theorem tryRepair_of_valid (h : db.invalidSessionCount = 0) : db.tryRepair indexed = .ok db :=
  if_pos h

/-! The first round: every message gets its negated identifier. -/

theorem mem_setSeq {id seq : ℤ} {m : SessionMessageRow} :
    m ∈ (db.setSeq id seq).messages.rows ↔
      ∃ m₀ ∈ db.messages.rows, (if m₀.id = id then { m₀ with seq := seq } else m₀) = m := by
  simp only [SessionDb.setSeq, Table.mem_update, decide_eq_true_eq]

/-- The first round goes through exactly when no message takes a number that one of its session
still holds, by induction on the messages that have their number. -/
theorem allSteps_negated {l : List SessionMessageRow} (hsub : ∀ m ∈ l, m ∈ db.messages.rows)
    (hids : (l.map (·.id)).Nodup) (hdone : ∀ m ∈ db.messages.rows, m ∈ l ∨ m.seq = -m.id) :
    AllSteps (fun db p => db.setSeq p.1 p.2) (fun db p => db.seqFree p.1 p.2) db
        (l.map fun m => (m.id, -m.id)) ↔
      l.Pairwise fun a b => a.sessionId = b.sessionId → b.seq ≠ -a.id := by
  induction l generalizing db with
  | nil => exact ⟨fun _ => List.Pairwise.nil, fun _ => trivial⟩
  | cons a l ih =>
    rw [List.map_cons, List.nodup_cons] at hids
    have ha : a ∈ db.messages.rows := hsub a (List.mem_cons_self ..)
    have hne : ∀ m ∈ l, m.id ≠ a.id := fun m hm he => hids.1 (he ▸ List.mem_map_of_mem hm)
    have hsub' : ∀ m ∈ l, m ∈ (db.setSeq a.id (-a.id)).messages.rows := fun m hm =>
      mem_setSeq.mpr ⟨m, hsub m (List.mem_cons_of_mem _ hm), if_neg (hne m hm)⟩
    have hdone' : ∀ m ∈ (db.setSeq a.id (-a.id)).messages.rows, m ∈ l ∨ m.seq = -m.id := by
      intro m hm
      obtain ⟨m₀, hm₀, rfl⟩ := mem_setSeq.mp hm
      split_ifs with hid
      · exact Or.inr (by rw [hid])
      · rcases hdone m₀ hm₀ with hmem | hseq
        · rcases List.mem_cons.mp hmem with rfl | hmem
          · exact absurd rfl hid
          · exact Or.inl hmem
        · exact Or.inr hseq
    rw [List.map_cons, AllSteps, List.pairwise_cons, ih hsub' hids.2 hdone']
    apply and_congr_left
    intro _
    constructor
    · intro hfree b hb hs hseq
      exact hne b hb (hfree a ha rfl b (hsub b (List.mem_cons_of_mem _ hb)) hs.symm hseq)
    · intro hfree m hm hid b hb hs hseq
      obtain rfl : m = a := Table.eq_of_key hm ha hid
      rcases hdone b hb with hmem | hown
      · rcases List.mem_cons.mp hmem with rfl | hmem
        · rfl
        · exact absurd hseq (hfree b hmem hs.symm)
      · dsimp only at hseq
        omega

theorem orderedMessages_ids (db : SessionDb) : ((orderedMessages db).map (·.id)).Nodup :=
  ((orderedMessages_perm db).map _).nodup_iff.mpr db.messages.unique

theorem orderedMessages_clash (hdistinct : SeqsDistinct db) :
    ((orderedMessages db).Pairwise fun a b => a.sessionId = b.sessionId → b.seq ≠ -a.id) ↔
      ¬ SeqClash db := by
  have hordered : (orderedMessages db).Pairwise fun a b =>
      a.sessionId = b.sessionId → a.seq < b.seq := by
    have hdistinct' : (orderedMessages db).Pairwise fun a b =>
        a.sessionId = b.sessionId → a.seq ≠ b.seq :=
      (List.Perm.pairwise_iff (fun h hs => (h hs.symm).symm) (orderedMessages_perm db)).mpr
        hdistinct
    refine ((orderedMessages_sorted db).and hdistinct').imp ?_
    rintro a b ⟨hle, hne⟩ hs
    rw [Prod.Lex.le_iff] at hle
    rcases hle with hlt | ⟨-, hle⟩
    · exact absurd hs (ne_of_lt hlt)
    · rw [Prod.Lex.le_iff] at hle
      rcases hle with hlt | ⟨heq, -⟩
      · exact hlt
      · exact absurd heq (hne hs)
  constructor
  · rintro hpairwise ⟨a, ha, b, hb, hs, hlt, hseq⟩
    have hsymm : (orderedMessages db).Pairwise fun a b => a.sessionId = b.sessionId →
        (a.seq < b.seq → b.seq ≠ -a.id) ∧ (b.seq < a.seq → a.seq ≠ -b.id) := by
      refine (hordered.and hpairwise).imp ?_
      rintro a b ⟨hlt, hne⟩ hs
      exact ⟨fun _ => hne hs, fun hgt => absurd hgt (lt_asymm (hlt hs))⟩
    have : Std.Symm fun a b : SessionMessageRow => a.sessionId = b.sessionId →
        (a.seq < b.seq → b.seq ≠ -a.id) ∧ (b.seq < a.seq → a.seq ≠ -b.id) :=
      ⟨fun _ _ h hs => (h hs.symm).symm⟩
    have hne : a ≠ b := by
      rintro rfl
      exact absurd hlt (lt_irrefl _)
    have hboth := hsymm.forall ((orderedMessages_perm db).mem_iff.mpr ha)
      ((orderedMessages_perm db).mem_iff.mpr hb) hne hs
    exact hboth.1 hlt hseq
  · intro hclash
    refine List.Pairwise.imp_of_mem ?_ hordered
    intro a b ha hb hlt hs hseq
    exact hclash ⟨a, (orderedMessages_perm db).mem_iff.mp ha, b,
      (orderedMessages_perm db).mem_iff.mp hb, hs, hlt hs, hseq⟩

/-! The second round: every message gets its place. -/

/-- The number that a message gets: its place among those of its session. -/
def placeOf (db : SessionDb) (m : SessionMessageRow) : ℤ :=
  ((formerOrder db m.sessionId).idxOf m : ℤ) + 1

theorem mem_formerOrder {m : SessionMessageRow} :
    m ∈ formerOrder db s ↔ m ∈ db.messages.rows ∧ m.sessionId = s := by
  unfold formerOrder
  rw [List.mem_insertionSort, mem_messagesOf]

theorem length_formerOrder : (formerOrder db s).length = (db.messagesOf s).length :=
  List.length_insertionSort ..

theorem formerOrder_perm : (formerOrder db s).Perm (db.messagesOf s) :=
  List.perm_insertionSort _ _

theorem formerOrder_sorted : (formerOrder db s).Pairwise fun a b =>
    toLex (a.seq, a.id) ≤ toLex (b.seq, b.id) := by
  have : Std.Total fun a b : SessionMessageRow => toLex (a.seq, a.id) ≤ toLex (b.seq, b.id) :=
    ⟨fun a b => le_total _ _⟩
  have : IsTrans SessionMessageRow fun a b => toLex (a.seq, a.id) ≤ toLex (b.seq, b.id) :=
    ⟨fun _ _ _ => le_trans⟩
  exact List.pairwise_insertionSort _ _

theorem formerOrder_nodup : (formerOrder db s).Nodup :=
  formerOrder_perm.nodup_iff.mpr (db.messages.rows_nodup.filter _)

/-- The messages of a session stand in the order of the repair as they do in their own. -/
theorem filter_orderedMessages :
    (orderedMessages db).filter (fun m => decide (m.sessionId = s)) = formerOrder db s := by
  have hperm : ((orderedMessages db).filter fun m => decide (m.sessionId = s)).Perm
      (formerOrder db s) := ((orderedMessages_perm db).filter _).trans formerOrder_perm.symm
  refine hperm.eq_of_pairwise ?_ ?_ formerOrder_sorted
  · intro a b ha hb hab hba
    have heq := toLex.injective (le_antisymm hab hba)
    have hmem := (mem_formerOrder.mp hb).1
    have hmem' := (mem_formerOrder.mp (hperm.mem_iff.mp ha)).1
    exact Table.eq_of_key hmem' hmem (Prod.mk.inj heq).2
  · refine List.Pairwise.imp_of_mem ?_ ((orderedMessages_sorted db).filter _)
    intro a b ha hb hle
    have hs : a.sessionId = b.sessionId :=
      (mem_formerOrder.mp (hperm.mem_iff.mp ha)).2.trans
        (mem_formerOrder.mp (hperm.mem_iff.mp hb)).2.symm
    rw [Prod.Lex.le_iff] at hle
    rcases hle with hlt | ⟨-, hle⟩
    · exact absurd hs (ne_of_lt hlt)
    · exact hle

/-- The places in a session are one to the number of its messages. -/
theorem map_placeOf : (formerOrder db s).map (placeOf db) = oneTo (db.messagesOf s).length := by
  have hplaces : (formerOrder db s).map (placeOf db) =
      (formerOrder db s).map fun m => ((formerOrder db s).idxOf m : ℤ) + 1 := by
    refine List.map_congr_left fun m hm => ?_
    rw [placeOf, (mem_formerOrder.mp hm).2]
  rw [hplaces]
  apply List.ext_getElem
  · rw [List.length_map, length_formerOrder, length_oneTo]
  · intro i hi hi'
    rw [List.length_map] at hi
    simp only [List.getElem_map, oneTo, List.getElem_range, formerOrder_nodup.idxOf_getElem i hi]

theorem placeOf_pos (m : SessionMessageRow) : 0 < placeOf db m := by
  unfold placeOf
  omega

theorem placeOf_inj {m m' : SessionMessageRow} (hm : m ∈ db.messages.rows)
    (hs : m.sessionId = m'.sessionId) (h : placeOf db m = placeOf db m') : m = m' := by
  unfold placeOf at h
  rw [← hs] at h
  exact (List.idxOf_inj (mem_formerOrder.mpr ⟨hm, rfl⟩)).mp (by omega)

/-- The numbering reads only the identifiers and the sessions. -/
theorem resequenced_map {f : SessionMessageRow → SessionMessageRow} (hid : ∀ m, (f m).id = m.id)
    (hs : ∀ m, (f m).sessionId = m.sessionId) (current : Option Text) (nextSeq : ℤ)
    (l : List SessionMessageRow) :
    SessionDb.resequenced current nextSeq (l.map f) = SessionDb.resequenced current nextSeq l := by
  induction l generalizing current nextSeq with
  | nil => rfl
  | cons m l ih => simp only [List.map_cons, SessionDb.resequenced, hid, hs, ih]

theorem orderedMessages_sessions (db : SessionDb) :
    (orderedMessages db).Pairwise fun a b => a.sessionId ≤ b.sessionId := by
  refine (orderedMessages_sorted db).imp fun {a b} hle => ?_
  rw [Prod.Lex.le_iff] at hle
  rcases hle with hlt | ⟨heq, -⟩
  · exact le_of_lt hlt
  · exact le_of_eq heq

theorem mem_resequenced {m : SessionMessageRow} (hm : m ∈ db.messages.rows) :
    (m.id, placeOf db m) ∈ SessionDb.resequenced none 0 (orderedMessages db) := by
  -- messages that had their places already would keep them
  let placed (m : SessionMessageRow) : SessionMessageRow := { m with seq := placeOf db m }
  have hmem : placed m ∈ (orderedMessages db).map placed :=
    List.mem_map_of_mem ((orderedMessages_perm db).mem_iff.mpr hm)
  have hsorted : ((orderedMessages db).map placed).Pairwise fun a b =>
      a.sessionId ≤ b.sessionId := by
    rw [List.pairwise_map]
    exact orderedMessages_sessions db
  have hseqs : (((orderedMessages db).map placed).filter
      (fun m' => decide (m'.sessionId = m.sessionId))).map (·.seq) =
      (List.range (db.messagesOf m.sessionId).length).map fun i : ℕ => (0 : ℤ) + (i + 1) := by
    have hfilter : (((orderedMessages db).map placed).filter
        (fun m' => decide (m'.sessionId = m.sessionId))).map (·.seq) =
        (formerOrder db m.sessionId).map (placeOf db) := by
      rw [List.filter_map, List.map_map, ← filter_orderedMessages]
      rfl
    rw [hfilter, map_placeOf, oneTo]
    simp only [zero_add]
  have hplaced : ((placed m).id, (placed m).seq) ∈
      SessionDb.resequenced none 0 ((orderedMessages db).map placed) :=
    resequenced_of_consecutive 0 (db.messagesOf m.sessionId).length hsorted
      (fun c hc => absurd hc (by simp)) (by simp) hseqs hmem rfl
  rw [resequenced_map (f := placed) (fun _ => rfl) fun _ => rfl] at hplaced
  exact hplaced

theorem resequenced_nodup (db : SessionDb) :
    ((SessionDb.resequenced none 0 (orderedMessages db)).map Prod.fst).Nodup := by
  rw [resequenced_ids]
  exact orderedMessages_ids db

theorem of_mem_resequenced {p : ℤ × ℤ}
    (hp : p ∈ SessionDb.resequenced none 0 (orderedMessages db)) :
    ∃ m ∈ db.messages.rows, p = (m.id, placeOf db m) := by
  have hid := List.mem_map_of_mem (f := Prod.fst) hp
  rw [resequenced_ids] at hid
  obtain ⟨m, hm, heq⟩ := List.mem_map.mp hid
  have hm' := (orderedMessages_perm db).mem_iff.mp hm
  exact ⟨m, hm', List.inj_on_of_nodup_map (resequenced_nodup db) hp (mem_resequenced hm') heq.symm⟩

/-- On the way from the negated identifiers to the places. -/
def BetweenRounds (db db' : SessionDb) : Prop :=
  ∀ m ∈ db'.messages.rows, ∃ m₀ ∈ db.messages.rows, m₀.id = m.id ∧ m₀.sessionId = m.sessionId ∧
    (m.seq = -m.id ∨ m.seq = placeOf db m₀)

theorem betweenRounds_step {p : ℤ × ℤ} (h : BetweenRounds db db')
    (hp : p ∈ SessionDb.resequenced none 0 (orderedMessages db)) :
    BetweenRounds db (db'.setSeq p.1 p.2) := by
  obtain ⟨a, ha, rfl⟩ := of_mem_resequenced hp
  intro m hm
  obtain ⟨m₁, hm₁, rfl⟩ := mem_setSeq.mp hm
  obtain ⟨m₀, hm₀, hid, hs, hseq⟩ := h m₁ hm₁
  split_ifs with heq
  · obtain rfl : m₀ = a := Table.eq_of_key hm₀ ha (hid.trans heq)
    exact ⟨m₀, hm₀, hid, hs, Or.inr rfl⟩
  · exact ⟨m₀, hm₀, hid, hs, hseq⟩

/-- A place is free until its message takes it. -/
theorem betweenRounds_free (hpos : ∀ m ∈ db.messages.rows, 0 < m.id) {p : ℤ × ℤ}
    (h : BetweenRounds db db') (hp : p ∈ SessionDb.resequenced none 0 (orderedMessages db)) :
    db'.seqFree p.1 p.2 := by
  obtain ⟨a, ha, rfl⟩ := of_mem_resequenced hp
  intro m hm hid b hb hs hseq
  obtain ⟨m₀, hm₀, hmid, hms, -⟩ := h m hm
  obtain rfl : m₀ = a := Table.eq_of_key hm₀ ha (hmid.trans hid)
  obtain ⟨b₀, hb₀, hbid, hbs, hown | hplace⟩ := h b hb
  · have hplaced : 0 < placeOf db m₀ := placeOf_pos m₀
    have hbpos := hpos b₀ hb₀
    dsimp only at hseq
    omega
  · have hsame : b₀ = m₀ :=
      placeOf_inj hb₀ ((hbs.trans hs).trans hms.symm) (hplace.symm.trans hseq)
    rw [← hbid, hsame]

theorem allSteps_placed (hpos : ∀ m ∈ db.messages.rows, 0 < m.id) (h : BetweenRounds db db') :
    AllSteps (fun db p => db.setSeq p.1 p.2) (fun db p => db.seqFree p.1 p.2) db'
      (SessionDb.resequenced none 0 (orderedMessages db)) := by
  have hmem : AllSteps (fun (db : SessionDb) (p : ℤ × ℤ) => db.setSeq p.1 p.2)
      (fun _ p => p ∈ SessionDb.resequenced none 0 (orderedMessages db)) db'
      (SessionDb.resequenced none 0 (orderedMessages db)) := allSteps_of_mem fun _ hp _ => hp
  exact allSteps_of_guarded (fun _ _ h hp => betweenRounds_step h hp)
    (fun _ _ h hp => betweenRounds_free hpos h hp) h hmem

theorem renumber_negated {m : SessionMessageRow} (hm : m ∈ db.messages.rows) :
    renumber ((orderedMessages db).map fun m => (m.id, -m.id)) m = { m with seq := -m.id } := by
  apply renumber_of_mem
  · rw [List.map_map]
    exact orderedMessages_ids db
  · exact List.mem_map_of_mem (f := fun m : SessionMessageRow => (m.id, -m.id))
      ((orderedMessages_perm db).mem_iff.mpr hm)

theorem betweenRounds_start : BetweenRounds db
    (run (fun db p => db.setSeq p.1 p.2) db
      ((orderedMessages db).map fun m => (m.id, -m.id))) := by
  intro m hm
  unfold run at hm
  rw [(foldl_setSeq _ db).1] at hm
  obtain ⟨m₀, hm₀, rfl⟩ := List.mem_map.mp hm
  rw [renumber_negated hm₀]
  exact ⟨m₀, hm₀, rfl, rfl, Or.inl rfl⟩

/-- The repair goes through exactly when no temporary number meets one that is still held. -/
theorem tryRepair_succeeds (hpos : ∀ m ∈ db.messages.rows, 0 < m.id)
    (hdistinct : indexed = true → SeqsDistinct db) (h : db.invalidSessionCount ≠ 0) :
    (∃ db', db.tryRepair indexed = .ok db') ↔ ¬ (indexed = true ∧ SeqClash db) := by
  simp only [tryRepair_eq_ok h]
  cases indexed with
  | false =>
    simp only [Bool.false_eq_true, false_implies, false_and, not_false_eq_true, iff_true]
    exact ⟨_, allSteps_true, allSteps_true, rfl⟩
  | true =>
    simp only [true_implies, true_and]
    have hfirst := allSteps_negated (fun m hm => (orderedMessages_perm db).mem_iff.mp hm)
      (orderedMessages_ids db) fun m hm => Or.inl ((orderedMessages_perm db).mem_iff.mpr hm)
    rw [orderedMessages_clash (hdistinct rfl)] at hfirst
    constructor
    · rintro ⟨_, hsteps, -⟩
      exact hfirst.mp hsteps
    · intro hclash
      exact ⟨_, hfirst.mpr hclash, allSteps_placed hpos betweenRounds_start, rfl⟩

/-! What the repair leaves behind. -/

theorem repaired_rows (h : db.invalidSessionCount ≠ 0) :
    db.repairDuplicateMessageSequences.messages.rows =
      db.messages.rows.map fun m => { m with seq := placeOf db m } := by
  have hfirst := foldl_setSeq ((orderedMessages db).map fun m => (m.id, -m.id)) db
  rw [List.foldl_map] at hfirst
  have hsecond := foldl_setSeq (SessionDb.resequenced none 0 (orderedMessages db))
    ((orderedMessages db).foldl (fun db m => db.setSeq m.id (-m.id)) db)
  rw [hfirst.1, hfirst.2, List.map_map] at hsecond
  unfold SessionDb.repairDuplicateMessageSequences
  rw [if_neg h]
  refine hsecond.1.trans (List.map_congr_left fun m hm => ?_)
  rw [Function.comp_apply, renumber_negated hm]
  exact renumber_of_mem (m := { m with seq := -m.id }) (resequenced_nodup db) (mem_resequenced hm)

theorem repaired_others (h : db.invalidSessionCount ≠ 0) :
    db.repairDuplicateMessageSequences.sessions = db.sessions ∧
      db.repairDuplicateMessageSequences.projects = db.projects ∧
      db.repairDuplicateMessageSequences.nextMessageId = db.nextMessageId := by
  have hframe : ∀ (pairs : List (ℤ × ℤ)) (db : SessionDb),
      (pairs.foldl (fun db p => db.setSeq p.1 p.2) db).sessions = db.sessions ∧
        (pairs.foldl (fun db p => db.setSeq p.1 p.2) db).projects = db.projects ∧
        (pairs.foldl (fun db p => db.setSeq p.1 p.2) db).nextMessageId = db.nextMessageId := by
    intro pairs
    induction pairs with
    | nil => exact fun _ => ⟨rfl, rfl, rfl⟩
    | cons p pairs ih => exact fun db => ih (db.setSeq p.1 p.2)
  have hfirst := hframe ((orderedMessages db).map fun m => (m.id, -m.id)) db
  rw [List.foldl_map] at hfirst
  have hsecond := hframe (SessionDb.resequenced none 0 (orderedMessages db))
    ((orderedMessages db).foldl (fun db m => db.setSeq m.id (-m.id)) db)
  rw [hfirst.1, hfirst.2.1, hfirst.2.2] at hsecond
  unfold SessionDb.repairDuplicateMessageSequences
  rw [if_neg h]
  exact hsecond

theorem repaired_runs (h : db.invalidSessionCount ≠ 0) :
    db.repairDuplicateMessageSequences.runs.rows = db.runs.rows.map fun r =>
      if decide (db.repairDuplicateMessageSequences.seqsOwnedBy r.runId ≠ []) = true then
        { r with
          startSeq := (db.repairDuplicateMessageSequences.seqsOwnedBy r.runId).min?
          endSeq := (db.repairDuplicateMessageSequences.seqsOwnedBy r.runId).max? }
      else r := by
  have hfirst := foldl_setSeq ((orderedMessages db).map fun m => (m.id, -m.id)) db
  rw [List.foldl_map] at hfirst
  have hsecond := foldl_setSeq (SessionDb.resequenced none 0 (orderedMessages db))
    ((orderedMessages db).foldl (fun db m => db.setSeq m.id (-m.id)) db)
  unfold SessionDb.repairDuplicateMessageSequences
  rw [if_neg h, ← hfirst.2, ← hsecond.2]
  rfl

/-! Numbers in shape. -/

/-- What the migration looks for in a session. -/
theorem validSeqs_iff {seqs : List ℤ} (hne : seqs ≠ []) :
    (seqs.min?.getD 0 = 1 ∧ seqs.max?.getD 0 = (seqs.length : ℤ) ∧
      seqs.dedup.length = seqs.length) ↔ seqs.Perm (oneTo seqs.length) := by
  constructor
  · rintro ⟨hmin, hmax, hdedup⟩
    have hnodup : seqs.Nodup := by
      rw [← (List.dedup_sublist seqs).eq_of_length hdedup]
      exact List.nodup_dedup seqs
    have hsub : seqs ⊆ oneTo seqs.length := by
      intro x hx
      rw [mem_oneTo]
      constructor
      · obtain ⟨a, ha⟩ := Option.ne_none_iff_exists'.mp
          (fun hnone => hne (List.min?_eq_none_iff.mp hnone) : seqs.min? ≠ none)
        have hle := (List.min?_eq_some_iff.mp ha).2 x hx
        rw [ha, Option.getD_some] at hmin
        omega
      · obtain ⟨a, ha⟩ := Option.ne_none_iff_exists'.mp
          (fun hnone => hne (List.max?_eq_none_iff.mp hnone) : seqs.max? ≠ none)
        have hle := (List.max?_eq_some_iff.mp ha).2 x hx
        rw [ha, Option.getD_some] at hmax
        omega
    exact (List.subperm_of_subset hnodup hsub).perm_of_length_le (by rw [length_oneTo])
  · intro hperm
    have hlength : 0 < seqs.length := List.length_pos_iff.mpr hne
    have hmem : ∀ x, x ∈ seqs ↔ 1 ≤ x ∧ x ≤ seqs.length := fun x =>
      hperm.mem_iff.trans mem_oneTo
    refine ⟨?_, ?_, ?_⟩
    · have hmin : seqs.min? = some 1 := by
        rw [List.min?_eq_some_iff]
        exact ⟨(hmem 1).mpr (by omega), fun x hx => ((hmem x).mp hx).1⟩
      rw [hmin, Option.getD_some]
    · have hmax : seqs.max? = some (seqs.length : ℤ) := by
        rw [List.max?_eq_some_iff]
        exact ⟨(hmem _).mpr (by omega), fun x hx => ((hmem x).mp hx).2⟩
      rw [hmax, Option.getD_some]
    · have hnodup : seqs.Nodup := hperm.nodup_iff.mpr ((pairwise_oneTo _).imp ne_of_lt)
      rw [hnodup.dedup]

/-- No session needs repair when the numbers of each are one to the number of its messages. -/
theorem invalidSessionCount_eq_zero : db.invalidSessionCount = 0 ↔
    ∀ s, ((db.messagesOf s).map (·.seq)).Perm (oneTo (db.messagesOf s).length) := by
  unfold SessionDb.invalidSessionCount
  rw [List.countP_eq_zero]
  constructor
  · intro h s
    by_cases hne : (db.messagesOf s).map (·.seq) = []
    · rw [hne, List.map_eq_nil_iff.mp hne]
      rfl
    · obtain ⟨m, hm⟩ := List.exists_mem_of_ne_nil _ (mt List.map_eq_nil_iff.mpr hne)
      have hs : s ∈ (db.messages.rows.map (·.sessionId)).dedup := by
        rw [List.mem_dedup, ← (mem_messagesOf.mp hm).2]
        exact List.mem_map_of_mem (mem_messagesOf.mp hm).1
      have hvalid := h s hs
      simp only [decide_eq_true_eq] at hvalid
      push Not at hvalid
      have hperm := (validSeqs_iff hne).mp hvalid
      rw [List.length_map] at hperm
      exact hperm
  · intro h s hs
    obtain ⟨m, hm, hms⟩ := List.mem_map.mp (List.mem_dedup.mp hs)
    have hne : (db.messagesOf s).map (·.seq) ≠ [] :=
      mt List.map_eq_nil_iff.mp (List.ne_nil_of_mem (mem_messagesOf.mpr ⟨hm, hms⟩))
    have hperm := h s
    rw [← List.length_map (f := fun m : SessionMessageRow => m.seq)] at hperm
    have hvalid := (validSeqs_iff hne).mpr hperm
    simp only [decide_eq_true_eq]
    push Not
    exact hvalid

/-- Numbers in shape are the places already. -/
theorem formerOrder_seqs (h : db.invalidSessionCount = 0) :
    (formerOrder db s).map (·.seq) = oneTo (db.messagesOf s).length := by
  have hperm : ((formerOrder db s).map (·.seq)).Perm (oneTo (db.messagesOf s).length) :=
    (formerOrder_perm.map _).trans (invalidSessionCount_eq_zero.mp h s)
  refine hperm.eq_of_pairwise' ?_ ((pairwise_oneTo _).imp le_of_lt)
  rw [List.pairwise_map]
  refine formerOrder_sorted.imp fun {a b} hle => ?_
  rw [Prod.Lex.le_iff] at hle
  rcases hle with hlt | ⟨heq, -⟩
  · exact le_of_lt hlt
  · exact le_of_eq heq

theorem repaired_valid (h : db.invalidSessionCount ≠ 0) :
    db.repairDuplicateMessageSequences.invalidSessionCount = 0 := by
  rw [invalidSessionCount_eq_zero]
  intro s
  have hmessages : db.repairDuplicateMessageSequences.messagesOf s =
      (db.messagesOf s).map fun m => { m with seq := placeOf db m } := by
    unfold SessionDb.messagesOf
    rw [repaired_rows h, List.filter_map]
    rfl
  rw [hmessages, List.map_map, List.length_map, ← map_placeOf]
  exact formerOrder_perm.symm.map _

theorem resequenced_repair (h : db.invalidSessionCount ≠ 0) :
    Resequenced db db.repairDuplicateMessageSequences := by
  refine ⟨⟨placeOf db, repaired_rows h, fun s => map_placeOf⟩, ?_, ?_, repaired_others h,
    fun indexed => tryRepair_of_valid (repaired_valid h)⟩
  · intro _ r hr hne
    rw [repaired_runs h] at hr
    obtain ⟨r₀, -, rfl⟩ := List.mem_map.mp hr
    split_ifs at hne ⊢ with howns
    · exact ⟨rfl, rfl⟩
    · exact absurd (decide_eq_true hne) howns
  · rw [repaired_runs h, List.map_map]
    refine List.map_congr_left fun r _ => ?_
    rw [Function.comp_apply]
    split_ifs <;> rfl

theorem resequenced_of_valid (h : db.invalidSessionCount = 0) : Resequenced db db := by
  refine ⟨⟨(·.seq), (List.map_id _).symm, fun s => formerOrder_seqs h⟩, ?_, rfl, ⟨rfl, rfl, rfl⟩,
    fun indexed => tryRepair_of_valid h⟩
  intro hinvalid
  exact absurd h hinvalid

/-- The migration keeps its promise exactly when it has nothing to do, or no unique index is there
yet, or no later message of a session holds the temporary number of an earlier one. -/
theorem tryRepair_resequences_iff (db : SessionDb) (indexed : Bool)
    (hpos : ∀ m ∈ db.messages.rows, 0 < m.id) (hdistinct : indexed = true → SeqsDistinct db) :
    (∃ db', db.tryRepair indexed = .ok db' ∧ Resequenced db db') ↔
      db.invalidSessionCount = 0 ∨ ¬ (indexed = true ∧ SeqClash db) := by
  by_cases h : db.invalidSessionCount = 0
  · exact iff_of_true ⟨db, tryRepair_of_valid h, resequenced_of_valid h⟩ (Or.inl h)
  · rw [← tryRepair_succeeds hpos hdistinct h]
    constructor
    · rintro ⟨db', hok, -⟩
      exact Or.inr ⟨db', hok⟩
    · rintro (hvalid | ⟨db', hok⟩)
      · exact absurd hvalid h
      · obtain rfl := ((tryRepair_eq_ok h).mp hok).2.2
        exact ⟨_, hok, resequenced_repair h⟩

end

def legacyMessage (id seq : ℤ) (runId : Option Text) : SessionMessageRow where
  id := id
  sessionId := "s1".toList
  seq := seq
  runId := runId
  role := "user".toList
  content := []
  harnessNotice := false
  createdAt := []

/-- A session whose numbers have a gap. -/
def gappedDb : SessionDb where
  sessions := freshDb.sessions
  runs := Table.empty
  messages := ⟨[legacyMessage 1 (-1) none, legacyMessage 2 4 none], by decide⟩
  projects := Table.empty

theorem tryRepair_resequences_gapped :
    ∃ db', gappedDb.tryRepair true = .ok db' ∧ Resequenced gappedDb db' :=
  (tryRepair_resequences_iff gappedDb true (by decide) (by decide)).mpr (Or.inr (by decide))

/-- Two messages below zero, the later of which holds the number that the first one is to pass
through. -/
def clashingDb : SessionDb where
  sessions := freshDb.sessions
  runs := Table.empty
  messages := ⟨[legacyMessage 1 (-5) none, legacyMessage 2 (-1) none], by decide⟩
  projects := Table.empty

theorem clashing_migration_fails :
    (∀ m ∈ clashingDb.messages.rows, 0 < m.id) ∧ SeqsDistinct clashingDb ∧
      ∀ db', clashingDb.tryRepair true ≠ .ok db' := by
  refine ⟨by decide, by decide, fun db' hok => ?_⟩
  have hinvalid : clashingDb.invalidSessionCount ≠ 0 := by decide +kernel
  have hclash := (tryRepair_succeeds (by decide) (fun _ => by decide) hinvalid).mp ⟨db', hok⟩
  exact hclash ⟨rfl, by decide⟩

end DeepseekScience.Db
