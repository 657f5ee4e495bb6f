import DeepseekScience.Lib.Ranking
import DeepseekScience.Text

/-! The search for skills (dss-skills, `bm25.rs`): two rankings are fused by reciprocal ranks. -/
namespace DeepseekScience.Skills

structure Skill where
  name : Text
  description : Text
  source : Text
  body : Text
  deriving DecidableEq

structure SkillHit where
  name : Text
  description : Text
  source : Text
  score : ℚ
  deriving DecidableEq

/-- What a skill scores for a query among all skills; an empty query has no scores. -/
structure Scores where
  bm25 : Finset Skill → Skill → Text → ℚ
  jaccard : Finset Skill → Skill → Text → ℚ

/-- How a hash map happens to iterate over its entries. -/
structure HashOrder where
  shuffle : List (ℕ × ℚ) → List (ℕ × ℚ)
  perm : ∀ entries, (shuffle entries).Perm entries

def rrfK : ℚ := 60

def rrfThreshold : ℚ := 29 / 1000

/-- The positive scores with the places of their skills, the greatest first. -/
def ranks (score : Skill → ℚ) (skills : List Skill) : List (ℕ × ℚ) :=
  Ranking.ranked Prod.snd (skills.zipIdx.map fun entry => (entry.2, score entry.1))

section
variable (scores : Scores)

def bm25Ranks (skills : List Skill) (query : Text) : List (ℕ × ℚ) :=
  ranks (fun s => scores.bm25 skills.toFinset s query) skills

def jaccardRanks (skills : List Skill) (query : Text) : List (ℕ × ℚ) :=
  ranks (fun s => scores.jaccard skills.toFinset s query) skills

end

/-- `*entry(index).or_insert(0.0) += share`. -/
def addShare (entries : List (ℕ × ℚ)) (index : ℕ) (share : ℚ) : List (ℕ × ℚ) :=
  if index ∈ entries.map Prod.fst then
    entries.map fun e => if e.1 = index then (e.1, e.2 + share) else e
  else entries ++ [(index, 0 + share)]

def reciprocal (rank : ℕ) : ℚ := 1 / (rrfK + (rank + 1))

/-- The shares of a ranking, whose first rank is given. -/
def addRanks (entries : List (ℕ × ℚ)) : ℕ → List (ℕ × ℚ) → List (ℕ × ℚ)
  | _, [] => entries
  | rank, (index, _) :: rest =>
    addRanks (addShare entries index (reciprocal rank)) (rank + 1) rest

def hitOf (skill : Skill) (score : ℚ) : SkillHit :=
  ⟨skill.name, skill.description, skill.source, score⟩

/-- `bm25::search`. -/
def search (scores : Scores) (order : HashOrder) (skills : List Skill) (query : Text) :
    List SkillHit :=
  let rrf := addRanks (addRanks [] 0 (bm25Ranks scores skills query)) 0
    (jaccardRanks scores skills query)
  let hits := (order.shuffle rrf).insertionSort fun a b => b.2 ≤ a.2
  (hits.filter fun e => decide (rrfThreshold ≤ e.2)).filterMap fun e =>
    skills[e.1]?.map fun skill => hitOf skill e.2

/-! The map of shares. -/

/-- The share under a place, nothing when there is none. -/
def valueOf (entries : List (ℕ × ℚ)) (index : ℕ) : ℚ := (entries.lookup index).getD 0

theorem keys_addShare (entries : List (ℕ × ℚ)) (index : ℕ) (share : ℚ) :
    (addShare entries index share).map Prod.fst =
      if index ∈ entries.map Prod.fst then entries.map Prod.fst
      else entries.map Prod.fst ++ [index] := by
  unfold addShare
  split_ifs with hmem
  · rw [List.map_map]
    apply List.map_congr_left
    intro e _
    show (if e.1 = index then (e.1, e.2 + share) else e).1 = e.1
    split_ifs <;> rfl
  · simp

theorem valueOf_cons (e : ℕ × ℚ) (entries : List (ℕ × ℚ)) (index : ℕ) :
    valueOf (e :: entries) index = if index = e.1 then e.2 else valueOf entries index := by
  obtain ⟨k, w⟩ := e
  unfold valueOf
  by_cases hindex : index = k
  · simp [hindex]
  · have hne : (index == k) = false := beq_false_of_ne hindex
    simp [List.lookup_cons, hne, hindex]

theorem valueOf_eq_zero {entries : List (ℕ × ℚ)} {index : ℕ}
    (h : index ∉ entries.map Prod.fst) : valueOf entries index = 0 := by
  induction entries with
  | nil => rfl
  | cons e rest ih =>
    rw [List.map_cons, List.mem_cons, not_or] at h
    rw [valueOf_cons, if_neg h.1, ih h.2]

theorem valueOf_append (entries : List (ℕ × ℚ)) {e : ℕ × ℚ} (h : e.1 ∉ entries.map Prod.fst)
    (index : ℕ) : valueOf (entries ++ [e]) index =
      valueOf entries index + if index = e.1 then e.2 else 0 := by
  induction entries with
  | nil =>
    rw [List.nil_append, valueOf_cons]
    simp [valueOf]
  | cons first rest ih =>
    rw [List.map_cons, List.mem_cons, not_or] at h
    rw [List.cons_append, valueOf_cons, valueOf_cons, ih h.2]
    split_ifs with hfirst hindex
    · exact absurd (hindex.symm.trans hfirst) h.1
    · rw [add_zero]
    · rfl
    · rfl

theorem valueOf_map (entries : List (ℕ × ℚ)) (index : ℕ) (share : ℚ) (i : ℕ) :
    valueOf (entries.map fun e => if e.1 = index then (e.1, e.2 + share) else e) i =
      valueOf entries i + if i = index ∧ i ∈ entries.map Prod.fst then share else 0 := by
  induction entries with
  | nil => simp [valueOf]
  | cons e rest ih =>
    have hkey : (if e.1 = index then (e.1, e.2 + share) else e).1 = e.1 := by split_ifs <;> rfl
    rw [List.map_cons, valueOf_cons, valueOf_cons, hkey, ih, List.map_cons]
    by_cases hi : i = e.1
    · subst hi
      by_cases hindex : e.1 = index
      · simp [hindex]
      · simp [hindex]
    · rw [if_neg hi, if_neg hi]
      simp only [List.mem_cons, hi, false_or]

theorem valueOf_addShare (entries : List (ℕ × ℚ)) (index : ℕ) (share : ℚ) (i : ℕ) :
    valueOf (addShare entries index share) i =
      valueOf entries i + if i = index then share else 0 := by
  unfold addShare
  split_ifs with hmem hi hi
  · subst hi
    rw [valueOf_map, if_pos ⟨rfl, hmem⟩]
  · rw [valueOf_map, if_neg fun h => hi h.1]
  · rw [valueOf_append _ hmem, if_pos hi, zero_add]
  · rw [valueOf_append _ hmem, if_neg hi]

/-- The share that a ranking gives to a place. -/
def shareOf (ranked : List (ℕ × ℚ)) (first index : ℕ) : ℚ :=
  if index ∈ ranked.map Prod.fst then reciprocal (first + (ranked.map Prod.fst).idxOf index) else 0

theorem mem_keys_addRanks {entries ranked : List (ℕ × ℚ)} {first index : ℕ} :
    index ∈ (addRanks entries first ranked).map Prod.fst ↔
      index ∈ entries.map Prod.fst ∨ index ∈ ranked.map Prod.fst := by
  induction ranked generalizing entries first with
  | nil => simp [addRanks]
  | cons e rest ih =>
    rw [addRanks, ih, keys_addShare]
    split_ifs with hmem
    · simp only [List.map_cons, List.mem_cons]
      constructor
      · tauto
      · rintro (h | rfl | h)
        · exact Or.inl h
        · exact Or.inl hmem
        · exact Or.inr h
    · simp only [List.map_cons, List.mem_append, List.mem_cons, List.not_mem_nil, or_false]
      tauto

theorem keys_addRanks_nodup {entries ranked : List (ℕ × ℚ)} {first : ℕ}
    (h : (entries.map Prod.fst).Nodup) : ((addRanks entries first ranked).map Prod.fst).Nodup := by
  induction ranked generalizing entries first with
  | nil => exact h
  | cons e rest ih =>
    apply ih
    rw [keys_addShare]
    split_ifs with hmem
    · exact h
    · apply List.nodup_append'.mpr
      exact ⟨h, List.nodup_singleton _, by simpa using hmem⟩

theorem valueOf_addRanks {entries ranked : List (ℕ × ℚ)} {first index : ℕ}
    (h : (ranked.map Prod.fst).Nodup) :
    valueOf (addRanks entries first ranked) index =
      valueOf entries index + shareOf ranked first index := by
  induction ranked generalizing entries first with
  | nil => simp [addRanks, shareOf]
  | cons e rest ih =>
    obtain ⟨hnot, hrest⟩ := List.nodup_cons.mp h
    rw [addRanks, ih hrest, valueOf_addShare, add_assoc]
    congr 1
    unfold shareOf
    by_cases hi : index = e.1
    · subst hi
      rw [if_pos rfl, if_neg hnot, add_zero, List.map_cons, if_pos (List.mem_cons_self ..),
        List.idxOf_cons_self, Nat.add_zero]
    · rw [if_neg hi, zero_add, List.map_cons]
      by_cases hmem : index ∈ rest.map Prod.fst
      · rw [if_pos hmem, if_pos (List.mem_cons_of_mem _ hmem), List.idxOf_cons_ne _ (Ne.symm hi)]
        congr 1
        omega
      · rw [if_neg hmem, if_neg]
        rw [List.mem_cons]
        tauto

/-- The entries of a map are its keys with their values. -/
theorem mem_iff_valueOf {entries : List (ℕ × ℚ)} (h : (entries.map Prod.fst).Nodup) {i : ℕ}
    {v : ℚ} : (i, v) ∈ entries ↔ i ∈ entries.map Prod.fst ∧ v = valueOf entries i := by
  induction entries with
  | nil => simp
  | cons e rest ih =>
    obtain ⟨hnot, hrest⟩ := List.nodup_cons.mp h
    rw [List.mem_cons, ih hrest, valueOf_cons, List.map_cons, List.mem_cons]
    by_cases hi : i = e.1
    · subst hi
      rw [if_pos rfl]
      constructor
      · rintro (heq | ⟨hmem, -⟩)
        · exact ⟨Or.inl rfl, (congrArg Prod.snd heq)⟩
        · exact absurd hmem hnot
      · rintro ⟨-, rfl⟩
        exact Or.inl rfl
    · rw [if_neg hi]
      constructor
      · rintro (heq | ⟨hmem, hv⟩)
        · exact absurd (congrArg Prod.fst heq) hi
        · exact ⟨Or.inr hmem, hv⟩
      · rintro ⟨hmem, hv⟩
        exact Or.inr ⟨hmem.resolve_left hi, hv⟩

end DeepseekScience.Skills
