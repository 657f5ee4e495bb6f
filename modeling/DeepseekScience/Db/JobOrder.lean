import DeepseekScience.Db.JobQueue

/-! The order in which the queued jobs of a session are handed out. The history of a queue keeps
what the order is meant to be: the last reorder, followed by the jobs enqueued since, and the jobs
that a restart has requeued. -/
namespace DeepseekScience.Db

open Tables Runs

structure History where
  jobs : BotJobs := .empty
  /-- For each session, the jobs of the last reorder and behind them those enqueued since. -/
  arranged : Text → List Text := fun _ => []
  /-- The jobs that a restart has requeued since the last reorder. -/
  requeued : List Text := []

namespace History

/-- What an operation adds to the history. -/
def step (first : FirstRow) (h : History) (op : JobOp) : History :=
  let h' := { h with jobs := jobStep first h.jobs op }
  match op with
  | .enqueue now freshId belongs requestedId botId sessionId prompt mode =>
    match (h.jobs.enqueueBotJob now freshId belongs requestedId botId sessionId prompt mode).1 with
    | .ok r =>
      { h' with
        arranged := Function.update h.arranged sessionId (h.arranged sessionId ++ [r.id]) }
    | .error _ => h'
  | .delete id revision =>
    match (h.jobs.deleteBotJob id revision).1 with
    | .ok _ =>
      { h' with
        arranged := fun s => (h.arranged s).filter (· ≠ id)
        requeued := h.requeued.filter (· ≠ id) }
    | .error _ => h'
  | .reorder now sessionId orderedIds =>
    match (h.jobs.reorderBotJobs now sessionId orderedIds).1 with
    | .ok _ =>
      { h' with
        arranged := Function.update h.arranged sessionId orderedIds
        requeued := h.requeued.filter (· ∉ orderedIds) }
    | .error _ => h'
  | .restart _ =>
    { h' with
      requeued := h.requeued ++
        (h.jobs.rows.filter fun r => decide (r.status = .running)).map BotJobRow.id }
  | _ => h'

/-- One job is meant to be handed out in front of another: a requeued job in front of all that
were enqueued after it, and otherwise the jobs in their arranged order. -/
def InFrontOf (h : History) (a b : BotJobRow) : Prop :=
  (a.id ∈ h.requeued ∧ [a, b].Sublist h.jobs.rows) ∨
    ([a.id, b.id].Sublist (h.arranged a.sessionId) ∧
      ¬ (b.id ∈ h.requeued ∧ [b, a].Sublist h.jobs.rows))

/-- The claim order of the queued jobs of a session is the order that is meant. -/
def HandsOutInOrder (h : History) : Prop :=
  ∀ a ∈ h.jobs.rows, ∀ b ∈ h.jobs.rows, a.sessionId = b.sessionId → a.status = .queued →
    b.status = .queued → a.priority = b.priority → h.InFrontOf a b → claimKey a < claimKey b

end History

/-- When the server restarts, no running job stands behind a job of its session that was enqueued
after it, by position and, for equal positions, by time of creation. -/
def RestartInOrder (t : BotJobs) : JobOp → Prop
  | .restart _ => ∀ a b, [a, b].Sublist t.rows → a.sessionId = b.sessionId → a.status = .running →
      b.Live → a.Before b
  | _ => True

/-- What keeps the order over restarts. -/
structure OrderKept (h : History) : Prop where
  priority : ∀ r ∈ h.jobs.rows, r.priority = 0
  arranged_mem : ∀ s, ∀ x ∈ h.arranged s, x ∈ h.jobs.rows.map BotJobRow.id
  requeued_mem : ∀ x ∈ h.requeued, x ∈ h.jobs.rows.map BotJobRow.id
  arranged_order : ∀ s, (h.arranged s).Pairwise fun x y =>
    ∀ a ∈ h.jobs.rows, ∀ b ∈ h.jobs.rows, a.id = x → b.id = y → a.sessionId = s → b.sessionId = s →
      a.Live → b.Live → a.Before b ∨ (a.status = .running ∧ [a, b].Sublist h.jobs.rows)
  requeued_order : h.jobs.rows.Pairwise fun a b =>
    a.sessionId = b.sessionId → a.status = .queued → a.id ∈ h.requeued → b.Live → a.Before b

namespace OrderKept

variable {h : History} {first : FirstRow} {t' : BotJobs}

theorem mem_of_pair {α : Type*} {a b : α} {l : List α} (hpair : [a, b].Sublist l) :
    a ∈ l ∧ b ∈ l :=
  ⟨hpair.subset List.mem_cons_self, hpair.subset (List.mem_cons_of_mem _ List.mem_cons_self)⟩

/-- The claim order is the order that is meant. -/
theorem handsOutInOrder (hkept : OrderKept h) : h.HandsOutInOrder := by
  intro a ha b hb hsession haq hbq hpriority hfront
  rw [claimKey_lt_iff hpriority]
  rcases hfront with ⟨hrequeued, hpair⟩ | ⟨hpair, -⟩
  · exact List.pairwise_iff_forall_sublist.mp hkept.requeued_order hpair hsession haq hrequeued
      (Or.inl hbq)
  · rcases List.pairwise_iff_forall_sublist.mp (hkept.arranged_order a.sessionId) hpair a ha b hb
      rfl rfl rfl hsession.symm (Or.inl haq) (Or.inl hbq) with hbefore | ⟨hrunning, -⟩
    · exact hbefore
    · rw [haq] at hrunning
      cases hrunning

theorem moves_live {status status' : JobStatus} (hmoves : Moves status status')
    (hlive : status' = .queued ∨ status' = .running) : status = .queued ∨ status = .running := by
  cases hmoves with
  | stays => exact hlive
  | claimed => exact Or.inl rfl
  | completed => exact Or.inr rfl
  | failed => exact Or.inr rfl

theorem moves_queued {status : JobStatus} (hmoves : Moves status .queued) : status = .queued := by
  cases hmoves
  rfl

theorem moves_running {status : JobStatus} (hmoves : Moves .running status)
    (hlive : status = .queued ∨ status = .running) : status = .running := by
  cases hmoves with
  | stays => rfl
  | completed => rcases hlive with h | h <;> cases h
  | failed => rcases hlive with h | h <;> cases h

/-- Rows that move forward in their slots keep the order. -/
theorem forward (hkept : OrderKept h) (hforward : Forward h.jobs t') :
    OrderKept { h with jobs := t' } := by
  obtain ⟨g, hrows, hg⟩ := hforward
  have hids : t'.rows.map BotJobRow.id = h.jobs.rows.map BotJobRow.id := by
    rw [hrows, List.map_map]
    exact List.map_congr_left fun r _ => (hg r).1.id
  constructor
  · intro r hr
    dsimp only at hr
    rw [hrows] at hr
    obtain ⟨r₀, hr₀, rfl⟩ := List.mem_map.mp hr
    exact (hg r₀).1.priority.trans (hkept.priority r₀ hr₀)
  · intro s x hx
    dsimp only
    rw [hids]
    exact hkept.arranged_mem s x hx
  · intro x hx
    dsimp only
    rw [hids]
    exact hkept.requeued_mem x hx
  · intro s
    refine (hkept.arranged_order s).imp fun {x y} horder a ha b hb hax hby has hbs hal hbl => ?_
    dsimp only at ha hb ⊢
    rw [hrows] at ha hb ⊢
    obtain ⟨a₀, ha₀, rfl⟩ := List.mem_map.mp ha
    obtain ⟨b₀, hb₀, rfl⟩ := List.mem_map.mp hb
    rcases horder a₀ ha₀ b₀ hb₀ ((hg a₀).1.id.symm.trans hax) ((hg b₀).1.id.symm.trans hby)
      ((hg a₀).1.sessionId.symm.trans has) ((hg b₀).1.sessionId.symm.trans hbs)
      (moves_live (hg a₀).2 hal) (moves_live (hg b₀).2 hbl) with hbefore | ⟨hrunning, hpair⟩
    · exact Or.inl (((hg a₀).1.before (hg b₀).1).mpr hbefore)
    · have hmoves := (hg a₀).2
      rw [hrunning] at hmoves
      exact Or.inr ⟨moves_running hmoves hal, hpair.map g⟩
  · dsimp only
    rw [hrows, List.pairwise_map]
    refine hkept.requeued_order.imp fun {a b} horder hsession haq hrequeued hbl => ?_
    rw [(hg a).1.id] at hrequeued
    rw [(hg a).1.sessionId, (hg b).1.sessionId] at hsession
    have hmoves := (hg a).2
    rw [haq] at hmoves
    exact ((hg a).1.before (hg b).1).mpr
      (horder hsession (moves_queued hmoves) hrequeued (moves_live (hg b).2 hbl))

/-- A new job stands behind the queued ones. -/
theorem enqueue (hkept : OrderKept h) {row : BotJobRow} (hrows : t'.rows = h.jobs.rows ++ [row])
    (hfresh : ∀ r ∈ h.jobs.rows, r.id ≠ row.id) (hpriority : row.priority = 0)
    (hposition : row.position = h.jobs.maxPosition row.sessionId + 1) :
    OrderKept
      { h with
        jobs := t'
        arranged := Function.update h.arranged row.sessionId
          (h.arranged row.sessionId ++ [row.id]) } := by
  have hold : ∀ {r}, r ∈ t'.rows → r.id ∈ h.jobs.rows.map BotJobRow.id → r ∈ h.jobs.rows := by
    intro r hr hid
    rw [hrows] at hr
    rcases List.mem_append.mp hr with hr | hr
    · exact hr
    · obtain ⟨r', hr', hid'⟩ := List.mem_map.mp hid
      rw [List.mem_singleton.mp hr] at hid'
      exact absurd hid' (hfresh r' hr')
  have hbehind : ∀ {a}, a ∈ h.jobs.rows → a.sessionId = row.sessionId → a.status = .queued →
      a.Before row := by
    intro a ha hsession hqueued
    have hmax := position_le_maxPosition ha hqueued
    rw [hsession] at hmax
    exact Or.inl (by omega)
  have hmono : ∀ {x}, x ∈ h.jobs.rows.map BotJobRow.id → x ∈ t'.rows.map BotJobRow.id := by
    intro x hx
    rw [hrows, List.map_append]
    exact List.mem_append_left _ hx
  have hsublist : h.jobs.rows.Sublist t'.rows := by
    rw [hrows]
    exact List.sublist_append_left _ _
  have hkeeps : ∀ s, (h.arranged s).Pairwise fun x y =>
      ∀ a ∈ t'.rows, ∀ b ∈ t'.rows, a.id = x → b.id = y → a.sessionId = s → b.sessionId = s →
        a.Live → b.Live → a.Before b ∨ (a.status = .running ∧ [a, b].Sublist t'.rows) := by
    intro s
    refine (hkept.arranged_order s).imp_of_mem fun {x y} hx hy horder a ha b hb hax hby has hbs
      hal hbl => ?_
    have ha' := hold ha (hax ▸ hkept.arranged_mem s x hx)
    have hb' := hold hb (hby ▸ hkept.arranged_mem s y hy)
    exact (horder a ha' b hb' hax hby has hbs hal hbl).imp_right fun hr =>
      ⟨hr.1, hr.2.trans hsublist⟩
  constructor
  · intro r hr
    dsimp only at hr
    rw [hrows] at hr
    rcases List.mem_append.mp hr with hr | hr
    · exact hkept.priority r hr
    · rw [List.mem_singleton.mp hr]
      exact hpriority
  · intro s x hx
    dsimp only at hx ⊢
    by_cases hs : s = row.sessionId
    · subst hs
      rw [Function.update_self] at hx
      rcases List.mem_append.mp hx with hx | hx
      · exact hmono (hkept.arranged_mem _ x hx)
      · rw [List.mem_singleton.mp hx, hrows]
        exact List.mem_map_of_mem (List.mem_append_right _ (List.mem_singleton_self row))
    · rw [Function.update_of_ne hs] at hx
      exact hmono (hkept.arranged_mem s x hx)
  · intro x hx
    exact hmono (hkept.requeued_mem x hx)
  · intro s
    dsimp only
    by_cases hs : s = row.sessionId
    · subst hs
      rw [Function.update_self, List.pairwise_append]
      refine ⟨hkeeps _, List.pairwise_singleton _ _, fun x hx y hy a ha b hb hax hby has hbs hal _ => ?_⟩
      have ha' := hold ha (hax ▸ hkept.arranged_mem _ x hx)
      have hb' : b = row := by
        rw [List.mem_singleton.mp hy] at hby
        rw [hrows] at hb
        rcases List.mem_append.mp hb with hb | hb
        · exact absurd hby (hfresh b hb)
        · exact List.mem_singleton.mp hb
      subst hb'
      rcases hal with hqueued | hrunning
      · exact Or.inl (hbehind ha' has hqueued)
      · refine Or.inr ⟨hrunning, ?_⟩
        rw [hrows]
        exact (List.singleton_sublist.mpr ha').append (List.Sublist.refl [b])
    · rw [Function.update_of_ne hs]
      exact hkeeps s
  · dsimp only
    rw [hrows, List.pairwise_append]
    refine ⟨hkept.requeued_order, List.pairwise_singleton _ _, fun a ha b hb hsession haq _ _ => ?_⟩
    rw [List.mem_singleton.mp hb] at hsession ⊢
    exact hbehind ha hsession haq

theorem delete (hkept : OrderKept h) {p : BotJobRow → Bool} {id : Text}
    (hp : ∀ r ∈ h.jobs.rows, p r = true → r.id = id) :
    OrderKept
      { jobs := h.jobs.delete p
        arranged := fun s => (h.arranged s).filter (· ≠ id)
        requeued := h.requeued.filter (· ≠ id) } := by
  have hstays : ∀ {x}, x ≠ id → x ∈ h.jobs.rows.map BotJobRow.id →
      x ∈ (h.jobs.delete p).rows.map BotJobRow.id := by
    intro x hx hmem
    obtain ⟨r, hr, rfl⟩ := List.mem_map.mp hmem
    refine List.mem_map_of_mem (Table.mem_delete.mpr ⟨hr, Bool.eq_false_iff.mpr fun hpr => ?_⟩)
    exact hx (hp r hr hpr)
  have hfiltered : ∀ {x : Text} {l : List Text}, x ∈ l.filter (· ≠ id) → x ∈ l ∧ x ≠ id := by
    intro x l hx
    rw [List.mem_filter, decide_eq_true_eq] at hx
    exact hx
  constructor
  · exact fun r hr => hkept.priority r (Table.mem_delete.mp hr).1
  · intro s x hx
    exact hstays (hfiltered hx).2 (hkept.arranged_mem s x (hfiltered hx).1)
  · intro x hx
    exact hstays (hfiltered hx).2 (hkept.requeued_mem x (hfiltered hx).1)
  · intro s
    refine ((hkept.arranged_order s).filter _).imp fun {x y} horder a ha b hb hax hby has hbs hal
      hbl => ?_
    obtain ⟨ha', hpa⟩ := Table.mem_delete.mp ha
    obtain ⟨hb', hpb⟩ := Table.mem_delete.mp hb
    refine (horder a ha' b hb' hax hby has hbs hal hbl).imp_right fun hr => ⟨hr.1, ?_⟩
    have hfilter := hr.2.filter fun r => !p r
    rwa [List.filter_cons_of_pos (by rw [hpa]; rfl), List.filter_cons_of_pos (by rw [hpb]; rfl),
      List.filter_nil] at hfilter
  · refine (hkept.requeued_order.filter _).imp fun {a b} horder hsession haq hrequeued hbl => ?_
    exact horder hsession haq (hfiltered hrequeued).1 hbl

theorem reorder (hkept : OrderKept h) {now sessionId : Text} {orderedIds : List Text}
    (hnodup : orderedIds.Nodup)
    (hperm : orderedIds.Perm ((h.jobs.queuedIn sessionId).map BotJobRow.id))
    (hrows : t'.rows = h.jobs.rows.map (placeAll now sessionId orderedIds.zipIdx)) :
    OrderKept
      { jobs := t'
        arranged := Function.update h.arranged sessionId orderedIds
        requeued := h.requeued.filter (· ∉ orderedIds) } := by
  have hids : t'.rows.map BotJobRow.id = h.jobs.rows.map BotJobRow.id := by
    rw [hrows, List.map_map]
    exact List.map_congr_left fun r _ => (placeAll_same now sessionId _ r).id
  have hother : ∀ {r : BotJobRow}, r.sessionId ≠ sessionId →
      placeAll now sessionId orderedIds.zipIdx r = r := by
    intro r hr
    apply placeAll_of_not
    rintro e - ⟨-, hsession, -⟩
    exact hr hsession
  have hlisted : ∀ {r}, r ∈ h.jobs.queuedIn sessionId → r.id ∈ orderedIds := fun hr =>
    hperm.mem_iff.mpr (List.mem_map_of_mem hr)
  constructor
  · intro r hr
    dsimp only at hr
    rw [hrows] at hr
    obtain ⟨r₀, hr₀, rfl⟩ := List.mem_map.mp hr
    exact (placeAll_same now sessionId _ r₀).priority.trans (hkept.priority r₀ hr₀)
  · intro s x hx
    dsimp only at hx ⊢
    rw [hids]
    by_cases hs : s = sessionId
    · subst hs
      rw [Function.update_self] at hx
      obtain ⟨r, hr, rfl⟩ := List.mem_map.mp (hperm.mem_iff.mp hx)
      exact List.mem_map_of_mem (mem_queuedIn.mp hr).1
    · rw [Function.update_of_ne hs] at hx
      exact hkept.arranged_mem s x hx
  · intro x hx
    dsimp only
    rw [hids]
    exact hkept.requeued_mem x (List.mem_of_mem_filter hx)
  · intro s
    dsimp only
    rw [hrows]
    by_cases hs : s = sessionId
    · subst hs
      rw [Function.update_self, List.pairwise_iff_getElem]
      intro i j hi hj hij a ha b hb hai hbj has hbs _ _
      obtain ⟨a₀, ha₀, rfl⟩ := List.mem_map.mp ha
      obtain ⟨b₀, hb₀, rfl⟩ := List.mem_map.mp hb
      rw [(placeAll_same now s _ a₀).id] at hai
      rw [(placeAll_same now s _ b₀).id] at hbj
      have ha' := queuedIn_of_listed hperm ha₀ (hai ▸ List.getElem_mem hi)
      have hb' := queuedIn_of_listed hperm hb₀ (hbj ▸ List.getElem_mem hj)
      refine Or.inl (Or.inl ?_)
      rw [placeAll_position_of_listed hnodup ha' (hai ▸ List.getElem?_eq_getElem hi),
        placeAll_position_of_listed hnodup hb' (hbj ▸ List.getElem?_eq_getElem hj)]
      omega
    · rw [Function.update_of_ne hs]
      refine (hkept.arranged_order s).imp fun {x y} horder a ha b hb hax hby has hbs hal hbl => ?_
      obtain ⟨a₀, ha₀, rfl⟩ := List.mem_map.mp ha
      obtain ⟨b₀, hb₀, rfl⟩ := List.mem_map.mp hb
      have has' := (placeAll_same now sessionId orderedIds.zipIdx a₀).sessionId.symm.trans has
      have hbs' := (placeAll_same now sessionId orderedIds.zipIdx b₀).sessionId.symm.trans hbs
      rw [hother (has'.trans_ne hs)] at hax hal ⊢
      rw [hother (hbs'.trans_ne hs)] at hby hbl ⊢
      refine (horder a₀ ha₀ b₀ hb₀ hax hby has' hbs' hal hbl).imp_right fun hr => ⟨hr.1, ?_⟩
      have hpair := hr.2.map (placeAll now sessionId orderedIds.zipIdx)
      rwa [List.map_cons, List.map_singleton, hother (has'.trans_ne hs),
        hother (hbs'.trans_ne hs)] at hpair
  · dsimp only
    rw [hrows, List.pairwise_map]
    refine hkept.requeued_order.imp_of_mem fun {a b} ha _ horder hsession haq hrequeued hbl => ?_
    have hsame := placeAll_same now sessionId orderedIds.zipIdx
    rw [(hsame a).id, List.mem_filter, decide_eq_true_eq] at hrequeued
    rw [(hsame a).sessionId, (hsame b).sessionId] at hsession
    rw [(hsame a).status] at haq
    have hne : a.sessionId ≠ sessionId := fun he =>
      hrequeued.2 (hlisted (mem_queuedIn.mpr ⟨ha, he, haq⟩))
    have hb' := hother (r := b) (hsession ▸ hne)
    rw [hb'] at hbl
    rw [hother hne, hb']
    exact horder hsession haq hrequeued.1 hbl

end OrderKept

/-- One row behind a restart. -/
def restartRow (now : Text) (r : BotJobRow) : BotJobRow :=
  if decide (r.status = .running) then r.requeued now else r

theorem restartRow_slot (now : Text) (r : BotJobRow) : SameSlot r (restartRow now r) := by
  unfold restartRow
  split_ifs
  · exact ⟨rfl, rfl, rfl, rfl, rfl⟩
  · exact .refl r

theorem restartRow_live {now : Text} {r : BotJobRow} : (restartRow now r).Live ↔ r.Live := by
  unfold restartRow
  split_ifs with hrunning
  · exact ⟨fun _ => Or.inr (of_decide_eq_true hrunning), fun _ => Or.inl rfl⟩
  · rfl

theorem restartRow_queued {now : Text} {r : BotJobRow} (hlive : r.Live) :
    (restartRow now r).status = .queued := by
  unfold restartRow
  split_ifs with hrunning
  · rfl
  · exact hlive.resolve_right fun h => hrunning (decide_eq_true h)

section
variable {h : History} {first : FirstRow}

theorem restart_rows (now : Text) :
    (h.step first (.restart now)).jobs.rows = h.jobs.rows.map (restartRow now) := rfl

theorem mem_requeued_restart {now : Text} {x : Text} :
    x ∈ (h.step first (.restart now)).requeued ↔
      x ∈ h.requeued ∨ ∃ r ∈ h.jobs.rows, r.status = .running ∧ r.id = x := by
  unfold History.step
  simp only [List.mem_append, List.mem_map, List.mem_filter, decide_eq_true_eq, and_assoc]

/-- A restart in order keeps the order. -/
theorem OrderKept.restart (hkept : OrderKept h) {now : Text}
    (hguard : RestartInOrder h.jobs (.restart now)) : OrderKept (h.step first (.restart now)) := by
  have hslot := restartRow_slot now
  have hids : (h.step first (.restart now)).jobs.rows.map BotJobRow.id =
      h.jobs.rows.map BotJobRow.id := by
    rw [restart_rows, List.map_map]
    exact List.map_congr_left fun r _ => (hslot r).id
  constructor
  · intro r hr
    rw [restart_rows] at hr
    obtain ⟨r₀, hr₀, rfl⟩ := List.mem_map.mp hr
    exact (hslot r₀).priority.trans (hkept.priority r₀ hr₀)
  · intro s x hx
    rw [hids]
    exact hkept.arranged_mem s x hx
  · intro x hx
    rw [hids]
    rcases mem_requeued_restart.mp hx with hx | ⟨r, hr, -, rfl⟩
    · exact hkept.requeued_mem x hx
    · exact List.mem_map_of_mem hr
  · intro s
    refine (hkept.arranged_order s).imp fun {x y} horder a ha b hb hax hby has hbs hal hbl => ?_
    rw [restart_rows] at ha hb
    obtain ⟨a₀, ha₀, rfl⟩ := List.mem_map.mp ha
    obtain ⟨b₀, hb₀, rfl⟩ := List.mem_map.mp hb
    rw [restartRow_live] at hal hbl
    have has' := (hslot a₀).sessionId.symm.trans has
    have hbs' := (hslot b₀).sessionId.symm.trans hbs
    refine Or.inl (((hslot a₀).before (hslot b₀)).mpr ?_)
    rcases horder a₀ ha₀ b₀ hb₀ ((hslot a₀).id.symm.trans hax) ((hslot b₀).id.symm.trans hby) has'
      hbs' hal hbl with hbefore | ⟨hrunning, hpair⟩
    · exact hbefore
    · exact hguard a₀ b₀ hpair (has'.trans hbs'.symm) hrunning hbl
  · rw [restart_rows, List.pairwise_map, List.pairwise_iff_forall_sublist]
    intro a b hpair hsession haq hrequeued hbl
    rw [(hslot a).sessionId, (hslot b).sessionId] at hsession
    rw [restartRow_live] at hbl
    rw [(hslot a).id, mem_requeued_restart] at hrequeued
    refine ((hslot a).before (hslot b)).mpr ?_
    have ha := (OrderKept.mem_of_pair hpair).1
    rcases restartRow_live.mp (Or.inl haq) with hqueued | hrunning
    · rcases hrequeued with hrequeued | ⟨r, hr, hrunning, hid⟩
      · exact List.pairwise_iff_forall_sublist.mp hkept.requeued_order hpair hsession hqueued
          hrequeued hbl
      · rw [Table.eq_of_key hr ha hid, hqueued] at hrunning
        cases hrunning
    · exact hguard a b hpair hsession hrunning hbl

/-- A restart out of order leaves two queued jobs in the wrong order. -/
theorem restart_outOfOrder {now : Text} (hkept : OrderKept h)
    (hguard : ¬ RestartInOrder h.jobs (.restart now)) :
    ¬ (h.step first (.restart now)).HandsOutInOrder := by
  intro horder
  apply hguard
  intro a b hpair hsession hrunning hbl
  have hslot := restartRow_slot now
  obtain ⟨ha, hb⟩ := OrderKept.mem_of_pair hpair
  have hpriority : (restartRow now a).priority = (restartRow now b).priority := by
    rw [(hslot a).priority, (hslot b).priority, hkept.priority a ha, hkept.priority b hb]
  have hkey := horder (restartRow now a) (List.mem_map_of_mem ha) (restartRow now b)
    (List.mem_map_of_mem hb) (by rw [(hslot a).sessionId, (hslot b).sessionId, hsession])
    (restartRow_queued (Or.inr hrunning)) (restartRow_queued hbl) hpriority
    (Or.inl ⟨?_, hpair.map (restartRow now)⟩)
  · rw [claimKey_lt_iff hpriority] at hkey
    exact ((hslot a).before (hslot b)).mp hkey
  · rw [(hslot a).id]
    exact mem_requeued_restart.mpr (Or.inr ⟨a, ha, hrunning, rfl⟩)

/-- An enqueue is refused, or adds one row at the end. -/
theorem enqueue_cases (t : BotJobs) (now freshId : Text) (belongs : Bool)
    (requestedId : Option Text) (botId sessionId prompt : Text) (mode : Bool) :
    (∃ e, t.enqueueBotJob now freshId belongs requestedId botId sessionId prompt mode =
        (.error e, t)) ∨
      ∃ row t', t.enqueueBotJob now freshId belongs requestedId botId sessionId prompt mode =
          (.ok row, t') ∧ t'.rows = t.rows ++ [row] ∧ (∀ r ∈ t.rows, r.id ≠ row.id) ∧
        row.sessionId = sessionId ∧ row.status = .queued ∧ row.priority = 0 ∧
        row.position = t.maxPosition sessionId + 1 := by
  unfold BotJobs.enqueueBotJob
  dsimp only
  split_ifs
  · split
    · exact Or.inl ⟨_, rfl⟩
    · rename_i t' hinsert
      obtain ⟨hrows, hfresh⟩ := Table.insert_eq_some hinsert
      refine Or.inr ⟨_, t', ?_, hrows, hfresh, rfl, rfl, rfl, rfl⟩
      have hmem : _ ∈ t'.rows := hrows ▸ List.mem_append_right _ (List.mem_singleton_self _)
      rw [Table.find_eq_some.mpr ⟨hmem, rfl⟩]
  · exact Or.inl ⟨_, rfl⟩

/-- Every operation keeps the order, unless it is a restart out of order. -/
theorem orderKept_step (hkept : OrderKept h) {op : JobOp} (hguard : RestartInOrder h.jobs op) :
    OrderKept (h.step first op) := by
  cases op with
  | enqueue now freshId belongs requestedId botId sessionId prompt mode =>
    unfold History.step jobStep
    dsimp only
    rcases enqueue_cases h.jobs now freshId belongs requestedId botId sessionId prompt mode with
      ⟨e, hrefused⟩ | ⟨row, t', haccepted, hrows, hfresh, rfl, -, hpriority, hposition⟩
    · rw [hrefused]
      exact hkept
    · rw [haccepted]
      exact hkept.enqueue hrows hfresh hpriority hposition
  | edit => exact hkept.forward (forward_edit ..)
  | delete id revision =>
    unfold History.step jobStep BotJobs.deleteBotJob
    dsimp only
    split_ifs with hcount
    · rw [Table.delete_of_count_eq_zero hcount]
      exact hkept
    · exact hkept.delete fun r _ hr => (of_decide_eq_true hr).1
  | reorder now sessionId orderedIds =>
    unfold History.step jobStep
    dsimp only
    cases hreply : (h.jobs.reorderBotJobs now sessionId orderedIds).1 with
    | error e =>
      dsimp only
      rw [reorder_refused hreply]
      exact hkept
    | ok listed =>
      obtain ⟨hperm, hrows⟩ := reorder_perm hreply
      exact hkept.reorder (hperm.nodup_iff.mpr (queuedIds_nodup h.jobs sessionId)) hperm hrows
  | claim => exact hkept.forward (forward_claim ..)
  | claimNext => exact hkept.forward (forward_claimNext ..)
  | finish => exact hkept.forward (forward_finish ..)
  | restart now => exact hkept.restart hguard

theorem history_jobs (first : FirstRow) (h : History) (op : JobOp) :
    (h.step first op).jobs = jobStep first h.jobs op := by
  cases op with
  | enqueue => unfold History.step; dsimp only; split <;> rfl
  | delete => unfold History.step; dsimp only; split <;> rfl
  | reorder => unfold History.step; dsimp only; split <;> rfl
  | _ => rfl

/-- No queued job is meant to be handed out in front of the one that is claimed next. -/
theorem claimNext_inOrder {now sessionId runId : Text} {c : BotJobRow} (horder : h.HandsOutInOrder)
    (hclaim : claimedJob first h.jobs (.claimNext now sessionId runId) = some c.id)
    (hc : c ∈ h.jobs.rows) {a : BotJobRow} (ha : a ∈ h.jobs.queuedIn sessionId)
    (hpriority : a.priority = c.priority) : ¬ h.InFrontOf a c := by
  cases hpick : first.pick (h.jobs.queuedIn sessionId) with
  | none =>
    unfold claimedJob at hclaim
    dsimp only at hclaim
    rw [claimNext_idle hpick] at hclaim
    cases hclaim
  | some next =>
    obtain ⟨hnext, hsession, hqueued⟩ := mem_queuedIn.mp (first.mem hpick)
    have hid := claimedJob_of_pick hpick hclaim
    obtain rfl := Table.eq_of_key hc hnext hid
    obtain ⟨ha', hasession, haqueued⟩ := mem_queuedIn.mp ha
    intro hfront
    exact first.first hpick ha (horder a ha' c hc (hasession.trans hsession.symm) haqueued hqueued
      hpriority hfront)

theorem orderKept_unguarded (hkept : OrderKept h) {op : JobOp}
    (hguard : ¬ RestartInOrder h.jobs op) : ¬ (h.step first op).HandsOutInOrder := by
  cases op with
  | restart now => exact restart_outOfOrder hkept hguard
  | _ => exact absurd trivial hguard

theorem orderKept_empty : OrderKept {} where
  priority := fun _ hr => by cases hr
  arranged_mem := fun _ _ hx => by cases hx
  requeued_mem := fun _ hx => by cases hx
  arranged_order := fun _ => List.Pairwise.nil
  requeued_order := List.Pairwise.nil

end

/-- The jobs behind a sequence of operations on an empty queue. -/
def jobsAfter (first : FirstRow) (ops : List JobOp) : BotJobs :=
  run (jobStep first) .empty ops

/-- The discipline of the queue over every sequence of operations. Whatever happens, a job is
claimed once at a time, stale writes change nothing, reorders permute the queued jobs, and rows
leave the table or the queued state only by a delete or a claim. The jobs are handed out in order
all the way exactly when no restart finds a running job behind a job enqueued after it. -/
theorem botJobQueue_discipline (first : FirstRow) (ops : List JobOp) :
    (∀ op id mid op', claimedJob first (jobsAfter first ops) op = some id →
      AllSteps (jobStep first) (fun t op => ¬ Releases t op id)
        (jobsAfter first (ops ++ [op])) mid →
      claimedJob first (jobsAfter first (ops ++ op :: mid)) op' ≠ some id) ∧
    (∀ op, StaleChangesNothing first (jobsAfter first ops) op ∧
      ReorderPermutes (jobsAfter first ops) op) ∧
    (∀ op, ∀ r ∈ (jobsAfter first ops).rows,
      ((∃ r' ∈ (jobsAfter first (ops ++ [op])).rows, r'.id = r.id) ∨
        deletedJob (jobsAfter first ops) op = some r.id) ∧
      (r.status = .queued →
        (∃ r' ∈ (jobsAfter first (ops ++ [op])).rows, r'.id = r.id ∧ r'.status = .queued) ∨
          deletedJob (jobsAfter first ops) op = some r.id ∨
          claimedJob first (jobsAfter first ops) op = some r.id)) ∧
    (∀ r ∈ (jobsAfter first ops).rows, r.Finished → ∀ mid,
      AllSteps (jobStep first) (fun t op => deletedJob t op ≠ some r.id) (jobsAfter first ops)
        mid →
      (∃ r' ∈ (jobsAfter first (ops ++ mid)).rows, r'.id = r.id ∧ r'.status = r.status) ∧
        ∀ op', claimedJob first (jobsAfter first (ops ++ mid)) op' ≠ some r.id) ∧
    (Always (History.step first) History.HandsOutInOrder {} ops ↔
      AllSteps (jobStep first) RestartInOrder .empty ops) ∧
    (∀ h : History, h.HandsOutInOrder → ∀ now sessionId runId, ∀ c ∈ h.jobs.rows,
      claimedJob first h.jobs (.claimNext now sessionId runId) = some c.id →
      ∀ a ∈ h.jobs.queuedIn sessionId, a.priority = c.priority → ¬ h.InFrontOf a c) := by
  have hone : ∀ op, jobsAfter first (ops ++ [op]) = jobStep first (jobsAfter first ops) op :=
    fun op => run_append
  refine ⟨fun op id mid op' hclaim hmid => ?_, fun op => ⟨stale_changesNothing op,
    reorder_permutes op⟩, fun op r hr => ?_, fun r hr hfinished mid hmid => ?_, ?_,
    fun h horder now sessionId runId c hc hclaim a ha hpriority =>
      claimNext_inOrder horder hclaim hc ha hpriority⟩
  · rw [hone] at hmid
    have honce := claimed_once hclaim hmid op'
    unfold jobsAfter at honce ⊢
    rw [run_append, run_cons]
    exact honce
  · rw [hone]
    rcases jobStep_row first hr op with ⟨r', hr', hid, hstep⟩ | ⟨hdeleted, -⟩
    · refine ⟨Or.inl ⟨r', hr', hid⟩, fun hqueued => ?_⟩
      rcases statusStep_queued hstep hqueued with hstays | hclaimed
      · exact Or.inl ⟨r', hr', hid, hstays⟩
      · exact Or.inr (Or.inr hclaimed)
    · exact ⟨Or.inr hdeleted, fun _ => Or.inr (Or.inl hdeleted)⟩
  · have hstays := finished_stays hr hfinished hmid
    unfold jobsAfter at hstays ⊢
    rw [run_append]
    exact hstays
  · have hiff : Always (History.step first) History.HandsOutInOrder {} ops ↔
        AllSteps (History.step first) (fun h op => RestartInOrder h.jobs op) {} ops :=
      always_iff (fun _ _ hkept hguard => orderKept_step hkept hguard)
        (fun _ hkept => hkept.handsOutInOrder)
        (fun _ _ hkept hguard => orderKept_unguarded hkept hguard) orderKept_empty
    rw [hiff]
    exact allSteps_map (history_jobs first)

/-- Between rows with equal keys, the one that was inserted first. -/
def firstInserted : FirstRow where
  pick :=
    let _ : Preorder ℤ := Int.instLinearOrder.toPreorder
    List.argmin claimKey
  mem := List.argmin_mem
  first := fun hpick hmem => List.not_lt_of_mem_argmin hmem hpick
  some_of_mem := by
    intro rows r hr
    rw [Option.isSome_iff_ne_none, ne_eq, List.argmin_eq_none]
    exact List.ne_nil_of_mem hr

/-- The enqueueing of a job with the given id. -/
def enqueueNamed (now id : String) : JobOp :=
  .enqueue now.toList [] true (some id.toList) "bot".toList "session".toList "prompt".toList false

/-- The second job is running at position 2 when the third one is enqueued at position 1. -/
def requeuedBehind : List JobOp :=
  [enqueueNamed "10:00" "job1", enqueueNamed "10:01" "job2",
    .claimNext "10:02".toList "session".toList "run1".toList,
    .finish "10:03".toList "job1".toList "run1".toList true none,
    .claimNext "10:04".toList "session".toList "run2".toList,
    enqueueNamed "10:05" "job3",
    .restart "10:06".toList]

/-- A job that a restart has requeued is handed out behind one that was enqueued after it. -/
theorem requeuedBehind_handedOut :
    claimedJob firstInserted (jobsAfter firstInserted requeuedBehind)
        (.claimNext "10:07".toList "session".toList "run3".toList) = some "job3".toList ∧
      (run (History.step firstInserted) {} requeuedBehind).requeued = ["job2".toList] ∧
      (jobsAfter firstInserted requeuedBehind).rows.map (fun r => (r.id, r.status)) =
        [("job1".toList, .completed), ("job2".toList, .queued), ("job3".toList, .queued)] := by
  refine ⟨?_, ?_, ?_⟩ <;> decide

end DeepseekScience.Db
