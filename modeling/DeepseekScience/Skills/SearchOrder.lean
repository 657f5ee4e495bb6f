import DeepseekScience.Skills.Search

/-! A search depends on the order of the skills exactly when equal scores decide about a hit. -/
namespace DeepseekScience.Skills

/-! Shares and the best of them. -/

def scored (score : Skill → ℚ) (skills : List Skill) : List (ℕ × ℚ) :=
  skills.zipIdx.map fun entry => (entry.2, score entry.1)

/-- The share of a skill that comes before all others of its score. -/
def bestShare (score : Skill → ℚ) (skills : List Skill) (s : Skill) : ℚ :=
  if 0 < score s then reciprocal (skills.countP fun t => decide (score s < score t)) else 0

section
variable {score : Skill → ℚ} {skills : List Skill} {s t : Skill} {i j : ℕ}

theorem mem_scored {e : ℕ × ℚ} : e ∈ scored score skills ↔
    ∃ s, skills[e.1]? = some s ∧ e.2 = score s := by
  unfold scored
  rw [List.mem_map]
  constructor
  · rintro ⟨⟨s, i⟩, hmem, rfl⟩
    exact ⟨s, List.mem_zipIdx_iff_getElem?.mp hmem, rfl⟩
  · rintro ⟨s, hs, hscore⟩
    exact ⟨(s, e.1), List.mem_zipIdx_iff_getElem?.mpr hs, Prod.ext rfl hscore.symm⟩

theorem scored_fst : (scored score skills).map Prod.fst = List.range skills.length := by
  unfold scored
  rw [List.map_map, List.range_eq_range', ← List.zipIdx_map_snd 0 skills]
  rfl

theorem scored_nodup : (scored score skills).Nodup := by
  apply List.Nodup.of_map Prod.fst
  rw [scored_fst]
  exact List.nodup_range

theorem ranks_keys_nodup : ((ranks score skills).map Prod.fst).Nodup := by
  have hkeys : (((scored score skills).filter fun a => decide (0 < a.2)).map Prod.fst).Nodup := by
    apply List.Nodup.sublist (List.filter_sublist.map _)
    rw [scored_fst]
    exact List.nodup_range
  exact (Ranking.ranked_perm.map Prod.fst).nodup_iff.mpr hkeys

theorem better_scored (v : ℚ) (i : ℕ) :
    Ranking.better Prod.snd (scored score skills) (i, v) =
      skills.countP fun t => decide (v < score t) := by
  have hskills : skills = skills.zipIdx.map Prod.fst := (List.zipIdx_map_fst 0 skills).symm
  unfold Ranking.better scored
  rw [List.countP_map]
  conv_rhs => rw [hskills, List.countP_map]
  rfl

theorem getElem?_scored (h : skills[i]? = some s) :
    (scored score skills)[i]? = some (i, score s) := by
  unfold scored
  rw [List.getElem?_map, List.getElem?_zipIdx, h]
  simp

theorem mem_scored_of (h : skills[i]? = some s) : (i, score s) ∈ scored score skills :=
  mem_scored.mpr ⟨s, h, rfl⟩

theorem pair_of_getElem? {α : Type} {l : List α} {a b : α} (ha : l[i]? = some a)
    (hb : l[j]? = some b) (hlt : i < j) : [a, b].Sublist l := by
  obtain ⟨hi, hia⟩ := List.getElem?_eq_some_iff.mp ha
  have hsplit : l = l.take i ++ a :: l.drop (i + 1) := by
    rw [← hia, List.getElem_cons_drop, List.take_append_drop]
  have hmem : b ∈ l.drop (i + 1) := by
    apply List.mem_of_getElem? (i := j - (i + 1))
    rw [List.getElem?_drop, Nat.add_sub_cancel' hlt, hb]
  rw [hsplit]
  exact Ranking.pair_sublist hmem

theorem idxOf_keys {entries : List (ℕ × ℚ)} (hnodup : (entries.map Prod.fst).Nodup) {e : ℕ × ℚ}
    (hmem : e ∈ entries) : (entries.map Prod.fst).idxOf e.1 = entries.idxOf e := by
  induction entries with
  | nil => exact absurd hmem List.not_mem_nil
  | cons first rest ih =>
    obtain ⟨hnot, hrest⟩ := List.nodup_cons.mp hnodup
    rcases List.mem_cons.mp hmem with rfl | hmem
    · rw [List.map_cons, List.idxOf_cons_self, List.idxOf_cons_self]
    · have hkey : first.1 ≠ e.1 := fun heq => hnot (heq ▸ List.mem_map_of_mem hmem)
      have hne : first ≠ e := fun heq => hkey (congrArg Prod.fst heq)
      rw [List.map_cons, List.idxOf_cons_ne _ hkey, List.idxOf_cons_ne _ hne, ih hrest hmem]

/-- The share of a place is that of its rank. -/
theorem shareOf_ranks (h : skills[i]? = some s) : shareOf (ranks score skills) 0 i =
    if 0 < score s then
      reciprocal ((Ranking.ranked Prod.snd (scored score skills)).idxOf (i, score s))
    else 0 := by
  unfold shareOf
  by_cases hpos : 0 < score s
  · have hmem : (i, score s) ∈ ranks score skills :=
      Ranking.mem_ranked.mpr ⟨mem_scored_of h, hpos⟩
    rw [if_pos (List.mem_map_of_mem hmem), if_pos hpos, idxOf_keys ranks_keys_nodup hmem,
      Nat.zero_add]
    rfl
  · rw [if_neg hpos, if_neg]
    intro hkey
    obtain ⟨e, he, rfl⟩ := List.mem_map.mp hkey
    obtain ⟨hscored, hpositive⟩ := Ranking.mem_ranked.mp he
    obtain ⟨s', hs', hscore⟩ := mem_scored.mp hscored
    obtain rfl := Option.some.inj (h.symm.trans hs')
    exact hpos (hscore ▸ hpositive)

theorem shareOf_outside (h : skills[i]? = none) : shareOf (ranks score skills) 0 i = 0 := by
  unfold shareOf
  rw [if_neg]
  intro hkey
  obtain ⟨e, he, rfl⟩ := List.mem_map.mp hkey
  obtain ⟨s, hs, -⟩ := mem_scored.mp (Ranking.mem_ranked.mp he).1
  rw [h] at hs
  cases hs

theorem reciprocal_lt {m n : ℕ} (h : m < n) : reciprocal n < reciprocal m := by
  have hcast : (m : ℚ) < n := by exact_mod_cast h
  unfold reciprocal rrfK
  apply one_div_lt_one_div_of_lt
  · positivity
  · linarith

theorem reciprocal_le {m n : ℕ} (h : m ≤ n) : reciprocal n ≤ reciprocal m := by
  rcases Nat.lt_or_eq_of_le h with hlt | rfl
  · exact (reciprocal_lt hlt).le
  · exact le_rfl

theorem shareOf_le_best (h : skills[i]? = some s) :
    shareOf (ranks score skills) 0 i ≤ bestShare score skills s := by
  rw [shareOf_ranks h]
  unfold bestShare
  split_ifs with hpos
  · apply reciprocal_le
    rw [← better_scored]
    exact Ranking.better_le_idxOf (a := (i, score s)) scored_nodup (mem_scored_of h) hpos
  · exact le_rfl

/-- In front of all others of its score a skill has its best share. -/
theorem shareOf_eq_best (h : skills[i]? = some s)
    (hties : ∀ j t, skills[j]? = some t → 0 < score s → score t = score s → i ≤ j) :
    shareOf (ranks score skills) 0 i = bestShare score skills s := by
  rw [shareOf_ranks h]
  unfold bestShare
  split_ifs with hpos
  · rw [Ranking.idxOf_eq_better (a := (i, score s)) scored_nodup (mem_scored_of h) hpos,
      better_scored]
    intro e he hne heq
    obtain ⟨t, ht, hscore⟩ := mem_scored.mp he
    have hle := hties e.1 t ht hpos (hscore.symm.trans heq)
    have hlt : i < e.1 := lt_of_le_of_ne hle fun hsame => hne (Prod.ext hsame.symm heq)
    have hother := @getElem?_scored score _ _ _ ht
    rw [← hscore] at hother
    exact pair_of_getElem? (getElem?_scored h) hother hlt
  · rfl

/-- Behind another skill of its score it has less. -/
theorem shareOf_lt_best (h : skills[i]? = some s) (hpos : 0 < score s) (ht : skills[j]? = some t)
    (hlt : j < i) (heq : score t = score s) :
    shareOf (ranks score skills) 0 i < bestShare score skills s := by
  rw [shareOf_ranks h]
  unfold bestShare
  rw [if_pos hpos, if_pos hpos]
  apply reciprocal_lt
  rw [← @better_scored score skills (score s) i]
  apply Ranking.better_lt_idxOf (a := (i, score s)) (b := (j, score t)) scored_nodup hpos
  · exact pair_of_getElem? (getElem?_scored ht) (getElem?_scored h) hlt
  · exact fun hsame => hlt.ne (congrArg Prod.fst hsame)
  · exact heq

theorem bestShare_perm {skills' : List Skill} (h : skills.Perm skills') :
    bestShare score skills s = bestShare score skills' s := by
  unfold bestShare
  rw [h.countP_eq]

end

/-! The hits of a search. -/

section
variable {scores : Scores} {order : HashOrder} {skills : List Skill} {query : Text}

/-- The fused score of a place. -/
def fused (scores : Scores) (skills : List Skill) (query : Text) (i : ℕ) : ℚ :=
  shareOf (bm25Ranks scores skills query) 0 i + shareOf (jaccardRanks scores skills query) 0 i

/-- The best fused score that a skill can have in any order of the skills. -/
def best (scores : Scores) (skills : List Skill) (query : Text) (s : Skill) : ℚ :=
  bestShare (fun s => scores.bm25 skills.toFinset s query) skills s +
    bestShare (fun s => scores.jaccard skills.toFinset s query) skills s

/-- Both shares of every place. -/
def rrfEntries (scores : Scores) (skills : List Skill) (query : Text) : List (ℕ × ℚ) :=
  addRanks (addRanks [] 0 (bm25Ranks scores skills query)) 0 (jaccardRanks scores skills query)

theorem rrfEntries_keys_nodup : ((rrfEntries scores skills query).map Prod.fst).Nodup :=
  keys_addRanks_nodup (keys_addRanks_nodup List.nodup_nil)

theorem valueOf_rrfEntries (i : ℕ) :
    valueOf (rrfEntries scores skills query) i = fused scores skills query i := by
  unfold rrfEntries fused bm25Ranks jaccardRanks
  rw [valueOf_addRanks ranks_keys_nodup, valueOf_addRanks ranks_keys_nodup]
  show 0 + _ + _ = _
  rw [zero_add]

theorem mem_rrfEntries {i : ℕ} {v : ℚ} (hv : rrfThreshold ≤ v) :
    (i, v) ∈ rrfEntries scores skills query ↔ v = fused scores skills query i := by
  rw [mem_iff_valueOf rrfEntries_keys_nodup, valueOf_rrfEntries, and_iff_right_iff_imp]
  rintro rfl
  by_contra hkey
  rw [← valueOf_rrfEntries, valueOf_eq_zero hkey] at hv
  exact absurd hv (by norm_num [rrfThreshold])

/-- The entries that are kept, in their order. -/
def keptEntries (scores : Scores) (order : HashOrder) (skills : List Skill) (query : Text) :
    List (ℕ × ℚ) :=
  ((order.shuffle (rrfEntries scores skills query)).insertionSort fun a b => b.2 ≤ a.2).filter
    fun e => decide (rrfThreshold ≤ e.2)

theorem search_eq : search scores order skills query =
    (keptEntries scores order skills query).filterMap fun e =>
      skills[e.1]?.map fun skill => hitOf skill e.2 := rfl

theorem keptEntries_perm : (keptEntries scores order skills query).Perm
    ((rrfEntries scores skills query).filter fun e => decide (rrfThreshold ≤ e.2)) :=
  ((List.perm_insertionSort _ _).trans (order.perm _)).filter _

theorem mem_keptEntries {i : ℕ} {v : ℚ} : (i, v) ∈ keptEntries scores order skills query ↔
    rrfThreshold ≤ v ∧ v = fused scores skills query i := by
  rw [keptEntries_perm.mem_iff, List.mem_filter, decide_eq_true_eq]
  constructor
  · rintro ⟨hmem, hv⟩
    exact ⟨hv, (mem_rrfEntries hv).mp hmem⟩
  · rintro ⟨hv, heq⟩
    exact ⟨(mem_rrfEntries hv).mpr heq, hv⟩

theorem mem_search {hit : SkillHit} : hit ∈ search scores order skills query ↔
    ∃ i s, skills[i]? = some s ∧ rrfThreshold ≤ fused scores skills query i ∧
      hit = hitOf s (fused scores skills query i) := by
  rw [search_eq, List.mem_filterMap]
  constructor
  · rintro ⟨⟨i, v⟩, hmem, hhit⟩
    obtain ⟨hv, rfl⟩ := mem_keptEntries.mp hmem
    obtain ⟨s, hs, rfl⟩ := Option.map_eq_some_iff.mp hhit
    exact ⟨i, s, hs, hv, rfl⟩
  · rintro ⟨i, s, hs, hv, rfl⟩
    use (i, fused scores skills query i)
    constructor
    · exact mem_keptEntries.mpr ⟨hv, rfl⟩
    · rw [hs]
      rfl

theorem search_sorted :
    (search scores order skills query).Pairwise fun a b => b.score ≤ a.score := by
  have hkept : (keptEntries scores order skills query).Pairwise fun a b => b.2 ≤ a.2 :=
    (@Ranking.pairwise_descending _ Prod.snd _).filter _
  rw [search_eq, List.pairwise_filterMap]
  apply hkept.imp
  rintro a b hle hit hhit hit' hhit'
  obtain ⟨s, -, rfl⟩ := Option.map_eq_some_iff.mp hhit
  obtain ⟨s', -, rfl⟩ := Option.map_eq_some_iff.mp hhit'
  exact hle

/-- Skills with different names have different hits. -/
theorem search_nodup (hnames : (skills.map Skill.name).Nodup) :
    (search scores order skills query).Nodup := by
  have hkeys : ((keptEntries scores order skills query).map Prod.fst).Nodup := by
    apply (keptEntries_perm.map Prod.fst).nodup_iff.mpr
    exact rrfEntries_keys_nodup.sublist (List.filter_sublist.map _)
  rw [search_eq, List.Nodup, List.pairwise_filterMap]
  apply (List.pairwise_map.mp hkeys).imp
  rintro a b hne hit hhit hit' hhit' rfl
  obtain ⟨s, hs, rfl⟩ := Option.map_eq_some_iff.mp hhit
  obtain ⟨s', hs', hsame⟩ := Option.map_eq_some_iff.mp hhit'
  have hname : s'.name = s.name := congrArg SkillHit.name hsame
  have hget : ∀ {i : ℕ} {s : Skill}, skills[i]? = some s →
      (skills.map Skill.name)[i]? = some s.name := by
    intro i s h
    rw [List.getElem?_map, h]
    rfl
  obtain ⟨hlt, -⟩ := List.getElem?_eq_some_iff.mp (hget hs)
  apply hne
  apply (List.getElem?_inj hlt hnames).mp
  rw [hget hs, hget hs', hname]

/-! Orders that decide. -/

/-- A skill that can reach the threshold has no equal: neither in one of the rankings nor in its
best fused score. -/
def Settled (scores : Scores) (skills : List Skill) (query : Text) : Prop :=
  ∀ s ∈ skills, rrfThreshold ≤ best scores skills query s → ∀ t ∈ skills, t ≠ s →
    ¬(0 < scores.bm25 skills.toFinset s query ∧
        scores.bm25 skills.toFinset t query = scores.bm25 skills.toFinset s query) ∧
      ¬(0 < scores.jaccard skills.toFinset s query ∧
        scores.jaccard skills.toFinset t query = scores.jaccard skills.toFinset s query) ∧
      best scores skills query t ≠ best scores skills query s

theorem fused_le_best {i : ℕ} {s : Skill} (h : skills[i]? = some s) :
    fused scores skills query i ≤ best scores skills query s :=
  add_le_add (shareOf_le_best h) (shareOf_le_best h)

theorem getElem?_injective (hnodup : skills.Nodup) {i j : ℕ} {s : Skill} (hi : skills[i]? = some s)
    (hj : skills[j]? = some s) : i = j :=
  (List.getElem?_inj (List.getElem?_eq_some_iff.mp hi).1 hnodup).mp (hi.trans hj.symm)

theorem fused_eq_best (hnodup : skills.Nodup) (hsettled : Settled scores skills query) {i : ℕ}
    {s : Skill} (h : skills[i]? = some s) (hbest : rrfThreshold ≤ best scores skills query s) :
    fused scores skills query i = best scores skills query s := by
  have hmem := List.mem_of_getElem? h
  have hties : ∀ score : Skill → ℚ, (∀ t ∈ skills, t ≠ s → ¬(0 < score s ∧ score t = score s)) →
      ∀ j t, skills[j]? = some t → 0 < score s → score t = score s → i ≤ j := by
    intro score hnone j t ht hpos heq
    by_cases hsame : t = s
    · subst hsame
      exact (getElem?_injective hnodup h ht).le
    · exact absurd ⟨hpos, heq⟩ (hnone t (List.mem_of_getElem? ht) hsame)
  unfold fused best
  congr 1
  · apply shareOf_eq_best h
    apply hties (fun s => scores.bm25 skills.toFinset s query)
    exact fun t ht hne => (hsettled s hmem hbest t ht hne).1
  · apply shareOf_eq_best h
    apply hties (fun s => scores.jaccard skills.toFinset s query)
    exact fun t ht hne => (hsettled s hmem hbest t ht hne).2.1

/-- The hits of settled skills are those that can reach the threshold, with their best scores. -/
theorem mem_search_settled (hnodup : skills.Nodup) (hsettled : Settled scores skills query)
    {hit : SkillHit} : hit ∈ search scores order skills query ↔
      ∃ s ∈ skills, rrfThreshold ≤ best scores skills query s ∧
        hit = hitOf s (best scores skills query s) := by
  rw [mem_search]
  constructor
  · rintro ⟨i, s, hs, hv, rfl⟩
    have hbest := hv.trans (fused_le_best hs)
    use s, List.mem_of_getElem? hs, hbest
    rw [fused_eq_best hnodup hsettled hs hbest]
  · rintro ⟨s, hs, hbest, rfl⟩
    obtain ⟨i, hi⟩ := List.getElem?_of_mem hs
    use i, s, hi
    rw [fused_eq_best hnodup hsettled hi hbest]
    exact ⟨hbest, rfl⟩

theorem best_perm {skills' : List Skill} (h : skills.Perm skills') (s : Skill) :
    best scores skills query s = best scores skills' query s := by
  unfold best
  rw [List.toFinset_eq_of_perm _ _ h, bestShare_perm h, bestShare_perm h]

theorem settled_perm {skills' : List Skill} (h : skills.Perm skills')
    (hsettled : Settled scores skills query) : Settled scores skills' query := by
  intro s hs hbest t ht hne
  rw [← best_perm h s] at hbest ⊢
  rw [← best_perm h t, ← List.toFinset_eq_of_perm _ _ h]
  exact hsettled s (h.mem_iff.mpr hs) hbest t (h.mem_iff.mpr ht) hne

/-- Settled skills give the same hits in every order. -/
theorem search_settled {skills' : List Skill} {order' : HashOrder}
    (hnames : (skills.map Skill.name).Nodup) (hsettled : Settled scores skills query)
    (hperm : skills.Perm skills') :
    search scores order skills query = search scores order' skills' query := by
  have hnodup : skills.Nodup := List.Nodup.of_map _ hnames
  have hnames' : (skills'.map Skill.name).Nodup := (hperm.map _).nodup_iff.mp hnames
  have hsettled' := settled_perm hperm hsettled
  have hsame : (search scores order skills query).Perm (search scores order' skills' query) := by
    apply (List.perm_ext_iff_of_nodup (search_nodup hnames) (search_nodup hnames')).mpr
    intro hit
    rw [mem_search_settled hnodup hsettled,
      mem_search_settled (hperm.nodup_iff.mp hnodup) hsettled']
    constructor
    · rintro ⟨s, hs, hbest, rfl⟩
      rw [best_perm hperm s] at hbest ⊢
      exact ⟨s, hperm.mem_iff.mp hs, hbest, rfl⟩
    · rintro ⟨s, hs, hbest, rfl⟩
      rw [← best_perm hperm s] at hbest ⊢
      exact ⟨s, hperm.mem_iff.mpr hs, hbest, rfl⟩
  apply List.Perm.eq_of_pairwise _ search_sorted search_sorted hsame
  -- Hits of one score are hits of one skill.
  intro a b ha hb hab hba
  obtain ⟨s, hs, hbest, rfl⟩ := (mem_search_settled hnodup hsettled).mp ha
  obtain ⟨t, ht, -, rfl⟩ := (mem_search_settled hnodup hsettled).mp (hsame.mem_iff.mpr hb)
  by_cases hst : t = s
  · rw [hst]
  · exact absurd (le_antisymm hab hba) (hsettled s hs hbest t ht hst).2.2

/-! Equal scores that decide. -/

/-- A skill in front of all others has its best score. -/
theorem fused_first {s : Skill} {rest : List Skill} :
    fused scores (s :: rest) query 0 = best scores (s :: rest) query s := by
  unfold fused best
  congr 1
  · exact shareOf_eq_best rfl fun j t _ _ _ => Nat.zero_le j
  · exact shareOf_eq_best rfl fun j t _ _ _ => Nat.zero_le j

/-- A hit names one place. -/
theorem fused_of_hit (hnames : (skills.map Skill.name).Nodup) {i : ℕ} {s : Skill} {v : ℚ}
    (h : skills[i]? = some s) (hhit : hitOf s v ∈ search scores order skills query) :
    fused scores skills query i = v := by
  obtain ⟨j, t, ht, -, hsame⟩ := mem_search.mp hhit
  have hname : s.name = t.name := congrArg SkillHit.name hsame
  have hnamed : ∀ {k : ℕ} {u : Skill}, skills[k]? = some u →
      (skills.map Skill.name)[k]? = some u.name := by
    intro k u hk
    rw [List.getElem?_map, hk]
    rfl
  have hij : i = j := by
    apply (List.getElem?_inj (List.getElem?_eq_some_iff.mp (hnamed h)).1 hnames).mp
    rw [hnamed h, hnamed ht, hname]
  subst hij
  exact (congrArg SkillHit.score hsame).symm

/-- Behind a skill of its score in one of the rankings a skill has less than its best score. -/
theorem fused_second {s t : Skill} {rest : List Skill}
    (htie : (0 < scores.bm25 (t :: s :: rest).toFinset s query ∧
        scores.bm25 (t :: s :: rest).toFinset t query =
          scores.bm25 (t :: s :: rest).toFinset s query) ∨
      (0 < scores.jaccard (t :: s :: rest).toFinset s query ∧
        scores.jaccard (t :: s :: rest).toFinset t query =
          scores.jaccard (t :: s :: rest).toFinset s query)) :
    fused scores (t :: s :: rest) query 1 < best scores (t :: s :: rest) query s := by
  have hs : (t :: s :: rest)[1]? = some s := rfl
  have ht : (t :: s :: rest)[0]? = some t := rfl
  rcases htie with ⟨hpos, heq⟩ | ⟨hpos, heq⟩
  · exact add_lt_add_of_lt_of_le (shareOf_lt_best hs hpos ht Nat.zero_lt_one heq)
      (shareOf_le_best hs)
  · exact add_lt_add_of_le_of_lt (shareOf_le_best hs)
      (shareOf_lt_best hs hpos ht Nat.zero_lt_one heq)

theorem exists_front {s t : Skill} (hs : s ∈ skills) (ht : t ∈ skills) (hne : t ≠ s) :
    ∃ rest, skills.Perm (s :: t :: rest) := by
  use (skills.erase s).erase t
  have hmem : t ∈ skills.erase s := (List.mem_erase_of_ne hne).mpr ht
  exact (List.perm_cons_erase hs).trans ((List.perm_cons_erase hmem).cons s)

/-- Entries of one score give their hits in the order of the hash map. -/
theorem pair_search {i j : ℕ} {v : ℚ} {s t : Skill} (hv : rrfThreshold ≤ v)
    (hs : skills[i]? = some s) (ht : skills[j]? = some t)
    (hpair : [(i, v), (j, v)].Sublist (order.shuffle (rrfEntries scores skills query))) :
    [hitOf s v, hitOf t v].Sublist (search scores order skills query) := by
  have hsorted := List.pair_sublist_insertionSort (r := fun a b : ℕ × ℚ => b.2 ≤ a.2)
    (show (j, v).2 ≤ (i, v).2 from le_rfl) hpair
  have hkept := hsorted.filter fun e => decide (rrfThreshold ≤ e.2)
  have hhits := hkept.filterMap fun e => skills[e.1]?.map fun skill => hitOf skill e.2
  rw [search_eq]
  unfold keptEntries
  simpa [hv, hs, ht] using hhits

def unshuffled : HashOrder := ⟨id, fun _ => List.Perm.refl _⟩

def backwards : HashOrder := ⟨List.reverse, fun entries => List.reverse_perm entries⟩

/-- Two places with one score come in one order and in the other. -/
theorem swapped_hits {i j : ℕ} {v : ℚ} {s t : Skill} (hv : rrfThreshold ≤ v)
    (hs : skills[i]? = some s) (ht : skills[j]? = some t) (hij : i ≠ j)
    (hi : fused scores skills query i = v) (hj : fused scores skills query j = v)
    (hnames : (skills.map Skill.name).Nodup) :
    search scores unshuffled skills query ≠ search scores backwards skills query := by
  intro hsame
  have hnodup := @search_nodup scores unshuffled skills query hnames
  have hleft := (mem_rrfEntries hv).mpr hi.symm
  have hright := (mem_rrfEntries hv).mpr hj.symm
  have hne : (i, v) ≠ (j, v) := fun h => hij (congrArg Prod.fst h)
  have hback : ∀ {a b : ℕ × ℚ}, [a, b].Sublist (rrfEntries scores skills query) →
      [b, a].Sublist (backwards.shuffle (rrfEntries scores skills query)) := fun h => h.reverse
  rcases Ranking.pair_or hleft hright hne with hpair | hpair
  · apply Ranking.not_pair_sublist hnodup (pair_search hv hs ht hpair)
    rw [hsame]
    exact pair_search hv ht hs (hback hpair)
  · apply Ranking.not_pair_sublist hnodup (pair_search hv ht hs hpair)
    rw [hsame]
    exact pair_search hv hs ht (hback hpair)

/-- All orders of the skills and of the hash map give the same hits. -/
def Agree (scores : Scores) (skills : List Skill) (query : Text) : Prop :=
  ∀ skills', skills.Perm skills' → ∀ order order',
    search scores order skills query = search scores order' skills' query

theorem Agree.both (h : Agree scores skills query) {first second : List Skill}
    (hfirst : skills.Perm first) (hsecond : skills.Perm second) (order order' : HashOrder) :
    search scores order first query = search scores order' second query := by
  rw [← h first hfirst order order, h second hsecond order order']

/-- Orders that agree give a skill its best score behind any other one too. -/
theorem Agree.fused_behind (h : Agree scores skills query)
    (hnames : (skills.map Skill.name).Nodup) {s t : Skill} {rest : List Skill}
    (hperm : skills.Perm (s :: t :: rest)) (hbest : rrfThreshold ≤ best scores skills query s) :
    fused scores (t :: s :: rest) query 1 = best scores skills query s := by
  have hswap : skills.Perm (t :: s :: rest) := hperm.trans (List.Perm.swap t s rest)
  have hfused := @fused_first scores query s (t :: rest)
  rw [← best_perm hperm s] at hfused
  have hhit : hitOf s (best scores skills query s) ∈
      search scores unshuffled (s :: t :: rest) query :=
    mem_search.mpr ⟨0, s, rfl, hfused.symm ▸ hbest, by rw [hfused]⟩
  rw [h.both hperm hswap unshuffled unshuffled] at hhit
  exact fused_of_hit ((hswap.map _).nodup_iff.mp hnames) rfl hhit

/-- Orders that agree meet no equal scores that decide. -/
theorem Agree.settled (h : Agree scores skills query) (hnames : (skills.map Skill.name).Nodup) :
    Settled scores skills query := by
  intro s hs hbest t ht hne
  obtain ⟨rest, hperm⟩ := exists_front hs ht hne
  have hswap : skills.Perm (t :: s :: rest) := hperm.trans (List.Perm.swap t s rest)
  have hbehind := h.fused_behind hnames hperm hbest
  rw [best_perm hswap s] at hbehind
  have hnone := mt fused_second hbehind.not_lt
  rw [not_or, ← List.toFinset_eq_of_perm _ _ hswap] at hnone
  constructor
  · exact hnone.1
  · constructor
    · exact hnone.2
    · intro hequal
      have hfirst : fused scores (s :: t :: rest) query 0 = best scores skills query s := by
        rw [fused_first, best_perm hperm s]
      have hsecond : fused scores (s :: t :: rest) query 1 = best scores skills query s := by
        rw [← hequal]
        exact h.fused_behind hnames hswap (hequal ▸ hbest)
      apply swapped_hits hbest rfl rfl Nat.zero_ne_one hfirst hsecond
        ((hperm.map _).nodup_iff.mp hnames)
      exact h.both hperm hperm unshuffled backwards

/-- The hits of a search depend on neither the order of the skills nor that of the hash map exactly
when no skill that can reach the threshold has an equal. -/
theorem search_agrees_iff (scores : Scores) (skills : List Skill) (query : Text)
    (hnames : (skills.map Skill.name).Nodup) :
    (∀ skills', skills.Perm skills' → ∀ order order',
      search scores order skills query = search scores order' skills' query) ↔
    Settled scores skills query := by
  constructor
  · intro hagree
    exact Agree.settled hagree hnames
  · intro hsettled skills' hperm order order'
    exact search_settled hnames hsettled hperm

end

/-! Skills whose scores count the letters of their names. -/

def plotSkill (name : String) : Skill :=
  ⟨name.toList, "Plots data.".toList, "builtin".toList, []⟩

def letterScores : Scores where
  bm25 := fun _ s _ => s.name.length
  jaccard := fun _ s _ => s.name.length

def twoSkills : List Skill := [plotSkill "plot", plotSkill "chart"]

theorem twoSkills_agree : Settled letterScores twoSkills [] ∧
    search letterScores unshuffled twoSkills [] =
      search letterScores backwards twoSkills.reverse [] := by
  have hsettled : Settled letterScores twoSkills [] := by
    unfold Settled
    decide +kernel
  constructor
  · exact hsettled
  · exact (search_agrees_iff letterScores twoSkills [] (by decide)).mpr hsettled twoSkills.reverse
      (List.reverse_perm _).symm unshuffled backwards

def nineSkills : List Skill :=
  (["a", "b", "c", "d", "e", "f", "g", "h", "i"]).map plotSkill

/-- Of nine skills with equal scores the one that comes last is not found. -/
theorem nineSkills_disagree :
    (nineSkills.map Skill.name).Nodup ∧ nineSkills.Perm nineSkills.reverse ∧
      ['i'] ∉ (search letterScores unshuffled nineSkills []).map SkillHit.name ∧
      ['i'] ∈ (search letterScores unshuffled nineSkills.reverse []).map SkillHit.name := by
  constructor
  · decide
  · constructor
    · exact (List.reverse_perm _).symm
    · constructor
      · decide +kernel
      · decide +kernel

end DeepseekScience.Skills
