import Mathlib.Tactic

/-! Answers that wait in queues, one queue a key, and those that ask for the answers of a key: who
asks takes the first answer of the queue. -/
namespace Fifo

variable {K R : Type*} [DecidableEq K]

/-- Something under a key that may ask, and that has its own answer, or none. -/
structure Exchange (K R : Type*) where
  key : K
  asks : Bool
  answer : Option R

/-- Take the first answer of a queue. -/
def take (queues : K → List R) (key : K) : Option R × (K → List R) :=
  match queues key with
  | [] => (none, queues)
  | r :: rest => (some r, Function.update queues key rest)

/-- What those that ask one after another are given. -/
def serve (queues : K → List R) : List K → List (Option R) × (K → List R)
  | [] => ([], queues)
  | key :: keys =>
    let given := take queues key
    let others := serve given.2 keys
    (given.1 :: others.1, others.2)

theorem serve_append (queues : K → List R) (keys others : List K) :
    serve queues (keys ++ others) =
      ((serve queues keys).1 ++ (serve (serve queues keys).2 others).1,
        (serve (serve queues keys).2 others).2) := by
  induction keys generalizing queues with
  | nil => rfl
  | cons key keys ih =>
    rw [List.cons_append, serve, ih]
    rfl

theorem length_serve (queues : K → List R) (keys : List K) :
    (serve queues keys).1.length = keys.length := by
  induction keys generalizing queues with
  | nil => rfl
  | cons key keys ih => rw [serve, List.length_cons, List.length_cons, ih]

theorem mem_of_take {queues : K → List R} {key key' : K} {r : R}
    (h : r ∈ (take queues key).2 key') : r ∈ queues key' := by
  unfold take at h
  cases hqueue : queues key with
  | nil =>
    rw [hqueue] at h
    exact h
  | cons first rest =>
    rw [hqueue] at h
    by_cases hkey : key' = key
    · subst hkey
      rw [hqueue]
      simp only [Function.update_self] at h
      exact List.mem_cons_of_mem _ h
    · simpa only [Function.update_of_ne hkey] using h

theorem mem_of_taken {queues : K → List R} {key : K} {r : R} (h : (take queues key).1 = some r) :
    r ∈ queues key := by
  unfold take at h
  cases hqueue : queues key with
  | nil =>
    rw [hqueue] at h
    cases h
  | cons first rest =>
    rw [hqueue] at h
    obtain rfl := Option.some.inj h
    exact List.mem_cons_self ..

theorem mem_of_serve {queues : K → List R} {keys : List K} {r : R}
    (h : some r ∈ (serve queues keys).1) : ∃ key, r ∈ queues key := by
  induction keys generalizing queues with
  | nil => exact absurd h List.not_mem_nil
  | cons key keys ih =>
    rcases List.mem_cons.mp h with h | h
    · exact ⟨key, mem_of_taken h.symm⟩
    · obtain ⟨key', hkey'⟩ := ih h
      exact ⟨key', mem_of_take hkey'⟩

/-- No answer waits twice. -/
structure Distinct (queues : K → List R) : Prop where
  nodup : ∀ key, (queues key).Nodup
  disjoint : ∀ key key' r, r ∈ queues key → r ∈ queues key' → key = key'

/-- The answer that is taken waits no more. -/
theorem Distinct.take {queues : K → List R} (h : Distinct queues) (key : K) :
    Distinct (take queues key).2 ∧
      ∀ r, (Fifo.take queues key).1 = some r → ∀ key', r ∉ (Fifo.take queues key).2 key' := by
  have hdisjoint : ∀ key₁ key₂ r, r ∈ (Fifo.take queues key).2 key₁ →
      r ∈ (Fifo.take queues key).2 key₂ → key₁ = key₂ :=
    fun key₁ key₂ r h₁ h₂ => h.disjoint key₁ key₂ r (mem_of_take h₁) (mem_of_take h₂)
  have hown := h.nodup key
  cases hqueue : queues key with
  | nil =>
    have htake : Fifo.take queues key = (none, queues) := by rw [Fifo.take, hqueue]
    rw [htake]
    exact ⟨h, fun r hr => by cases hr⟩
  | cons first rest =>
    rw [hqueue] at hown
    have htake : Fifo.take queues key = (some first, Function.update queues key rest) := by
      rw [Fifo.take, hqueue]
    rw [htake] at hdisjoint ⊢
    constructor
    · constructor
      · intro key'
        by_cases hkey : key' = key
        · subst hkey
          simpa using hown.of_cons
        · simpa [Function.update_of_ne hkey] using h.nodup key'
      · exact hdisjoint
    · intro r hr key' hmem
      obtain rfl := Option.some.inj hr
      by_cases hkey : key' = key
      · subst hkey
        simp only [Function.update_self] at hmem
        exact (List.nodup_cons.mp hown).1 hmem
      · simp only [Function.update_of_ne hkey] at hmem
        apply hkey
        apply h.disjoint key' key first hmem
        rw [hqueue]
        exact List.mem_cons_self ..

/-- Nothing is given twice. -/
theorem serve_nodup {queues : K → List R} (h : Distinct queues) (keys : List K) :
    ((serve queues keys).1.filterMap id).Nodup := by
  induction keys generalizing queues with
  | nil => exact List.nodup_nil
  | cons key keys ih =>
    obtain ⟨hnext, htaken⟩ := h.take key
    have hrest := ih hnext
    rw [serve]
    cases hfirst : (take queues key).1 with
    | none => exact hrest
    | some r =>
      have hnot : r ∉ (serve (take queues key).2 keys).1.filterMap id := by
        intro hmem
        obtain ⟨answer, hanswer, hr⟩ := List.mem_filterMap.mp hmem
        obtain rfl : answer = some r := hr
        obtain ⟨key', hkey'⟩ := mem_of_serve hanswer
        exact htaken r hfirst key' hkey'
      exact List.nodup_cons.mpr ⟨hnot, hrest⟩

/-- The answers under a key, in their order. -/
def answersOf (key : K) (exchanges : List (Exchange K R)) : List R :=
  exchanges.filterMap fun e => if e.key = key then e.answer else none

def asking (exchanges : List (Exchange K R)) : List (Exchange K R) :=
  exchanges.filter Exchange.asks

/-- An exchange that asks without an answer is followed by no answer under its key, and one that
does not ask but has an answer by none that asks under its key. -/
def Aligned (exchanges : List (Exchange K R)) : Prop :=
  exchanges.Pairwise fun e e' => e.key = e'.key →
    (e.asks = true → e.answer = none → e'.answer = none) ∧
      (e.asks = false → e.answer ≠ none → e'.asks = false)

instance decidableAligned (exchanges : List (Exchange K R)) : Decidable (Aligned exchanges) :=
  inferInstanceAs (Decidable (List.Pairwise _ exchanges))

theorem answersOf_cons (key : K) (e : Exchange K R) (exchanges : List (Exchange K R)) :
    answersOf key (e :: exchanges) =
      (if e.key = key then e.answer.toList else []) ++ answersOf key exchanges := by
  unfold answersOf
  rw [List.filterMap_cons]
  by_cases hkey : e.key = key
  · rw [if_pos hkey, if_pos hkey]
    cases e.answer with
    | none => rfl
    | some r => rfl
  · rw [if_neg hkey, if_neg hkey]
    rfl

theorem mem_answersOf {key : K} {r : R} {exchanges : List (Exchange K R)} :
    r ∈ answersOf key exchanges ↔ ∃ e ∈ exchanges, e.key = key ∧ e.answer = some r := by
  unfold answersOf
  rw [List.mem_filterMap]
  apply exists_congr
  intro e
  apply and_congr_right
  intro _
  split_ifs with hkey
  · exact ⟨fun h => ⟨hkey, h⟩, fun h => h.2⟩
  · exact ⟨fun h => absurd h (by simp), fun h => absurd h.1 hkey⟩

/-- With its own answers behind those that nobody took everybody is given its own answer exactly
when the exchanges are aligned, and nobody asks under the key of one that was left. By induction
on the exchanges. -/
theorem serve_own_iff {exchanges : List (Exchange K R)} {queues orphans : K → List R}
    (hqueues : ∀ key, queues key = orphans key ++ answersOf key exchanges)
    (hnodup : ∀ key, (queues key).Nodup) :
    (serve queues ((asking exchanges).map Exchange.key)).1 =
        (asking exchanges).map Exchange.answer ↔
      Aligned exchanges ∧ ∀ e ∈ exchanges, orphans e.key ≠ [] → e.asks = false := by
  induction exchanges generalizing queues orphans with
  | nil => exact ⟨fun _ => ⟨List.Pairwise.nil, fun e he => absurd he List.not_mem_nil⟩, fun _ => rfl⟩
  | cons e exchanges ih =>
    have hown := hqueues e.key
    have hother : ∀ key, key ≠ e.key → queues key = orphans key ++ answersOf key exchanges := by
      intro key hkey
      rw [hqueues key, answersOf_cons, if_neg (Ne.symm hkey), List.nil_append]
    rw [answersOf_cons, if_pos rfl] at hown
    cases hasks : e.asks with
    | false =>
      have hasking : asking (e :: exchanges) = asking exchanges := List.filter_cons_of_neg (by simp [hasks])
      rw [hasking]
      -- An answer that nobody asks for is left in front of the others.
      have hleft := @ih queues
        (Function.update orphans e.key (orphans e.key ++ e.answer.toList))
        (fun key => by
          by_cases hkey : key = e.key
          · subst hkey
            rw [Function.update_self, hown, List.append_assoc]
          · rw [Function.update_of_ne hkey, hother key hkey]) hnodup
      rw [hleft]
      constructor
      · rintro ⟨haligned, hlater⟩
        have hsame : ∀ e' ∈ exchanges, e.key = e'.key → orphans e.key ++ e.answer.toList ≠ [] →
            e'.asks = false := by
          intro e' he' hkey hne
          apply hlater e' he'
          rw [← hkey, Function.update_self]
          exact hne
        refine ⟨List.pairwise_cons.mpr ⟨fun e' he' hkey => ?_, haligned⟩, ?_⟩
        · refine ⟨fun h => absurd h (by simp [hasks]), fun _ hne => hsame e' he' hkey ?_⟩
          obtain ⟨r, hr⟩ := Option.ne_none_iff_exists'.mp hne
          simp [hr]
        · intro e' he' hne
          rcases List.mem_cons.mp he' with rfl | he'
          · exact hasks
          · by_cases hkey : e'.key = e.key
            · apply hsame e' he' hkey.symm
              rw [← hkey]
              exact fun h => hne (List.append_eq_nil_iff.mp h).1
            · apply hlater e' he'
              rw [Function.update_of_ne hkey]
              exact hne
      · rintro ⟨haligned, hlater⟩
        obtain ⟨hhead, htail⟩ := List.pairwise_cons.mp haligned
        refine ⟨htail, fun e' he' hne => ?_⟩
        by_cases hkey : e'.key = e.key
        · rw [hkey, Function.update_self] at hne
          cases hanswer : e.answer with
          | none =>
            rw [hanswer] at hne
            apply hlater e' (List.mem_cons_of_mem _ he')
            rw [hkey]
            simpa using hne
          | some r =>
            exact (hhead e' he' hkey.symm).2 hasks (by rw [hanswer]; exact Option.some_ne_none r)
        · rw [Function.update_of_ne hkey] at hne
          exact hlater e' (List.mem_cons_of_mem _ he') hne
    | true =>
      have hasking : asking (e :: exchanges) = e :: asking exchanges := List.filter_cons_of_pos hasks
      rw [hasking, List.map_cons, List.map_cons, serve]
      show ((take queues e.key).1 :: _ = _) ↔ _
      rw [List.cons.injEq]
      by_cases hfront : orphans e.key = []
      · rw [hfront, List.nil_append] at hown
        -- The answer of the one that asks is the first of its queue, if it has one.
        have htaken : ∀ next, (∀ key, next key = orphans key ++ answersOf key exchanges) →
            (∀ key, (next key).Nodup) →
            ((serve next ((asking exchanges).map Exchange.key)).1 =
                (asking exchanges).map Exchange.answer ↔
              Aligned exchanges ∧ ∀ e' ∈ e :: exchanges, orphans e'.key ≠ [] → e'.asks = false) := by
          intro next hnext hnext'
          rw [ih hnext hnext']
          apply and_congr_right
          intro _
          rw [List.forall_mem_cons]
          exact ⟨fun h => ⟨fun hne => absurd hfront hne, h⟩, fun h => h.2⟩
        cases hanswer : e.answer with
        | some r =>
          rw [hanswer] at hown
          have htake : take queues e.key =
              (some r, Function.update queues e.key (answersOf e.key exchanges)) := by
            rw [take, hown]
            rfl
          rw [htake]
          have hnext : ∀ key, Function.update queues e.key (answersOf e.key exchanges) key =
              orphans key ++ answersOf key exchanges := by
            intro key
            by_cases hkey : key = e.key
            · subst hkey
              rw [Function.update_self, hfront, List.nil_append]
            · rw [Function.update_of_ne hkey, hother key hkey]
          have hnext' : ∀ key, (Function.update queues e.key (answersOf e.key exchanges) key).Nodup := by
            intro key
            by_cases hkey : key = e.key
            · subst hkey
              rw [Function.update_self]
              have hall := hnodup e.key
              rw [hown] at hall
              exact hall.of_cons
            · rw [Function.update_of_ne hkey]
              exact hnodup key
          rw [htaken _ hnext hnext']
          constructor
          · rintro ⟨-, haligned, hlater⟩
            refine ⟨List.pairwise_cons.mpr ⟨fun e' he' hkey => ?_, haligned⟩, hlater⟩
            exact ⟨fun _ hnone => absurd (hanswer.symm.trans hnone) (by simp),
              fun hnot => absurd (hasks.symm.trans hnot) (by simp)⟩
          · rintro ⟨haligned, hlater⟩
            exact ⟨rfl, (List.pairwise_cons.mp haligned).2, hlater⟩
        | none =>
          rw [hanswer] at hown
          have hown : queues e.key = answersOf e.key exchanges := hown
          have hsame : ∀ key, queues key = orphans key ++ answersOf key exchanges := by
            intro key
            by_cases hkey : key = e.key
            · subst hkey
              rw [hown, hfront, List.nil_append]
            · exact hother key hkey
          constructor
          · rintro ⟨hgiven, hrest⟩
            have hempty : queues e.key = [] := by
              cases hqueue : queues e.key with
              | nil => rfl
              | cons r rest =>
                rw [take, hqueue] at hgiven
                cases hgiven
            have htake : take queues e.key = (none, queues) := by rw [take, hempty]
            rw [htake] at hrest
            obtain ⟨haligned, hlater⟩ := (htaken queues hsame hnodup).mp hrest
            refine ⟨List.pairwise_cons.mpr ⟨fun e' he' hkey => ?_, haligned⟩, hlater⟩
            refine ⟨fun _ _ => ?_, fun hnot => absurd (hasks.symm.trans hnot) (by simp)⟩
            cases hanswer' : e'.answer with
            | none => rfl
            | some r =>
              have hmem : r ∈ answersOf e.key exchanges :=
                mem_answersOf.mpr ⟨e', he', hkey.symm, hanswer'⟩
              rw [← hown, hempty] at hmem
              exact absurd hmem List.not_mem_nil
          · rintro ⟨haligned, hlater⟩
            obtain ⟨hhead, htail⟩ := List.pairwise_cons.mp haligned
            have hempty : queues e.key = [] := by
              rw [hown, List.eq_nil_iff_forall_not_mem]
              intro r hr
              obtain ⟨e', he', hkey, hanswer'⟩ := mem_answersOf.mp hr
              have hnone := (hhead e' he' hkey.symm).1 hasks hanswer
              rw [hanswer'] at hnone
              cases hnone
            have htake : take queues e.key = (none, queues) := by rw [take, hempty]
            rw [htake]
            exact ⟨rfl, (htaken queues hsame hnodup).mpr ⟨htail, hlater⟩⟩
      · -- One that asks behind a left answer is given that.
        obtain ⟨o, others, horphans⟩ := List.exists_cons_of_ne_nil hfront
        constructor
        · rintro ⟨hgiven, -⟩
          exfalso
          have hall := hnodup e.key
          rw [hown, horphans, List.cons_append] at hall
          have hnot := (List.nodup_cons.mp hall).1
          rw [take, hown, horphans, List.cons_append] at hgiven
          have hanswer : some o = e.answer := hgiven
          apply hnot
          rw [← hanswer]
          simp
        · rintro ⟨-, hlater⟩
          have hnot := hlater e (List.mem_cons_self ..) hfront
          rw [hasks] at hnot
          cases hnot

end Fifo
