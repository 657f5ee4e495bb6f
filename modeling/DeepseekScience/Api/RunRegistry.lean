import DeepseekScience.Text
import DeepseekScience.Lib.Table

/-! The registry of run controls: registrations of runs, cancellations that may reach the server
first, and the bounded history of both. Controls finish at any time, also while a call is under
way, so every look at a flag has a time of its own. -/
namespace DeepseekScience.Api

open Tables

def maxRecentRunControls : ℕ := 64

def maxPreCancelledRuns : ℕ := 64

/-- The session id and the client's run id. -/
abbrev RunKey := Text × Text

/-- The flags of all controls over time. A control that has finished stays finished. -/
structure FinishedFlags (C : Type) where
  isFinished : ℕ → C → Bool
  mono : ∀ time control, isFinished time control = true → isFinished (time + 1) control = true

/-- The three collections under the lock of the registry, and the time of the next look at a
flag. -/
structure RunControlRegistry (C : Type) where
  controls : Table (Prod.fst : RunKey × C → RunKey) := Table.empty
  controlOrder : List RunKey := []
  preCancelled : List RunKey := []
  time : ℕ := 0

namespace RunControlRegistry

variable {C : Type} (flags : FinishedFlags C)

def lookup (reg : RunControlRegistry C) (key : RunKey) : Option C :=
  (reg.controls.find key).map Prod.snd

/-- The place of the first candidate whose control is seen finished, and the time after the
search. -/
def firstFinished (controls : Table (Prod.fst : RunKey × C → RunKey)) :
    ℕ → List RunKey → Option ℕ × ℕ
  | time, [] => (none, time)
  | time, candidate :: rest =>
    match (controls.find candidate).map Prod.snd with
    | none => ((firstFinished controls time rest).1.map (· + 1), (firstFinished controls time rest).2)
    | some control =>
      if flags.isFinished time control then (some 0, time + 1)
      else ((firstFinished controls (time + 1) rest).1.map (· + 1),
        (firstFinished controls (time + 1) rest).2)

/-- The eviction loop of `register`, with the number of keys that are over the bound: every
round removes one key or ends the loop. -/
def evict : ℕ → RunControlRegistry C → RunControlRegistry C
  | 0, reg => reg
  | excess + 1, reg =>
    match firstFinished flags reg.controls reg.time reg.controlOrder with
    | (none, time) => { reg with time := time }
    | (some index, time) =>
      match reg.controlOrder[index]? with
      | none => { reg with time := time }
      | some expired => evict excess { reg with
          controls := reg.controls.delete fun row => row.1 = expired
          controlOrder := reg.controlOrder.eraseIdx index
          time := time }

/-- The control stands under its key, and the key at the end of the queue. -/
def inserted (reg : RunControlRegistry C) (key : RunKey) (control : C) : RunControlRegistry C :=
  { reg with
    controls := reg.controls.put (key, control)
    controlOrder := reg.controlOrder.erase key ++ [key] }

/-- Register an accepted run. `false` when an earlier cancellation of this very run won. -/
def register (reg : RunControlRegistry C) (key : RunKey) (control : C) :
    Bool × RunControlRegistry C :=
  if key ∈ reg.preCancelled then
    (false, { reg with preCancelled := reg.preCancelled.erase key })
  else
    let reg := reg.inserted key control
    (true, evict flags (reg.controlOrder.length - maxRecentRunControls) reg)

/-- A new marker. The oldest ones go while there are too many. -/
def marked (reg : RunControlRegistry C) (key : RunKey) : RunControlRegistry C :=
  let markers := reg.preCancelled ++ [key]
  { reg with preCancelled := markers.drop (markers.length - maxPreCancelledRuns) }

/-- The control of one exact run. A run that has not registered yet gets a marker. -/
def findOrPreCancel (reg : RunControlRegistry C) (key : RunKey) :
    Option C × RunControlRegistry C :=
  match reg.lookup key with
  | some control => (some control, reg)
  | none => (none, if key ∈ reg.preCancelled then reg else reg.marked key)

inductive Call (C : Type) where
  | register (key : RunKey) (control : C)
  | findOrPreCancel (key : RunKey)

inductive Reply (C : Type) where
  | registered (accepted : Bool)
  | found (control : Option C)
  deriving DecidableEq

def step (reg : RunControlRegistry C) : Call C → Reply C × RunControlRegistry C
  | .register key control =>
    (.registered (reg.register flags key control).1, (reg.register flags key control).2)
  | .findOrPreCancel key => (.found (reg.findOrPreCancel key).1, (reg.findOrPreCancel key).2)

def run (reg : RunControlRegistry C) (calls : List (Call C)) : RunControlRegistry C :=
  calls.foldl (fun reg call => (reg.step flags call).2) reg

def acceptedRegistration : Call C → Reply C → List (RunKey × C)
  | .register key control, .registered true => [(key, control)]
  | _, _ => []

/-- The accepted registrations of some calls, the latest one first. -/
def acceptedRegistrations (reg : RunControlRegistry C) : List (Call C) → List (RunKey × C)
  | [] => []
  | call :: rest =>
    acceptedRegistrations (reg.step flags call).2 rest ++
      acceptedRegistration call (reg.step flags call).1

def newMarker (reg : RunControlRegistry C) : Call C → List RunKey
  | .findOrPreCancel key =>
    if (reg.lookup key).isNone && !reg.preCancelled.contains key then [key] else []
  | .register _ _ => []

/-- The keys for which some calls left a new marker. -/
def newMarkers (reg : RunControlRegistry C) : List (Call C) → List RunKey
  | [] => []
  | call :: rest => reg.newMarker call ++ newMarkers (reg.step flags call).2 rest

variable {flags}

section
variable {controls : Table (Prod.fst : RunKey × C → RunKey)} {time : ℕ} {order : List RunKey}

theorem le_firstFinished : time ≤ (firstFinished flags controls time order).2 := by
  induction order generalizing time with
  | nil => exact le_rfl
  | cons candidate rest ih =>
    simp only [firstFinished]
    split
    · exact ih
    · split_ifs
      · exact Nat.le_succ time
      · exact (Nat.le_succ time).trans ih

/-- A candidate that is found was seen finished during the search. -/
theorem firstFinished_some {index : ℕ}
    (h : (firstFinished flags controls time order).1 = some index) :
    ∃ key control seenAt, order[index]? = some key ∧
      (controls.find key).map Prod.snd = some control ∧ time ≤ seenAt ∧
      seenAt < (firstFinished flags controls time order).2 ∧
      flags.isFinished seenAt control = true := by
  induction order generalizing time index with
  | nil => cases h
  | cons candidate rest ih =>
    simp only [firstFinished] at h ⊢
    split at h
    · obtain ⟨i, hi, rfl⟩ := Option.map_eq_some_iff.mp h
      simpa using ih hi
    · rename_i control hcontrol
      split_ifs at h ⊢ with hfinished
      · obtain rfl := Option.some.inj h
        exact ⟨candidate, control, time, rfl, hcontrol, le_rfl, Nat.lt_succ_self time, hfinished⟩
      · obtain ⟨i, hi, rfl⟩ := Option.map_eq_some_iff.mp h
        obtain ⟨key, control, seenAt, hkey, hcontrol, hle, hlt, hseen⟩ := ih hi
        exact ⟨key, control, seenAt, hkey, hcontrol, (Nat.le_succ time).trans hle, hlt, hseen⟩

/-- A search without result has seen every control unfinished. -/
theorem firstFinished_none (h : (firstFinished flags controls time order).1 = none) :
    ∀ key ∈ order, ∀ control, (controls.find key).map Prod.snd = some control →
      flags.isFinished time control = false := by
  induction order generalizing time with
  | nil => exact fun key hkey => absurd hkey List.not_mem_nil
  | cons candidate rest ih =>
    simp only [firstFinished] at h
    intro key hkey control hcontrol
    split at h
    · rename_i hnone
      rcases List.mem_cons.mp hkey with rfl | hkey
      · rw [hnone] at hcontrol
        cases hcontrol
      · exact ih (Option.map_eq_none_iff.mp h) key hkey control hcontrol
    · rename_i other hother
      split_ifs at h with hfinished
      rcases List.mem_cons.mp hkey with rfl | hkey
      · rw [hother] at hcontrol
        obtain rfl := Option.some.inj hcontrol
        simpa using hfinished
      · have hlater := ih (Option.map_eq_none_iff.mp h) key hkey control hcontrol
        by_contra hnow
        rw [flags.mono time control (by simpa using hnow)] at hlater
        cases hlater

end

/-- The order queue lists exactly the keys of the controls, each once. -/
structure OrderInStep (reg : RunControlRegistry C) : Prop where
  nodup : reg.controlOrder.Nodup
  keys : ∀ key, key ∈ reg.controlOrder ↔ ∃ control, reg.lookup key = some control

theorem OrderInStep.length {reg : RunControlRegistry C} (h : reg.OrderInStep) :
    reg.controls.rows.length = reg.controlOrder.length := by
  have hperm : (reg.controls.rows.map Prod.fst).Perm reg.controlOrder := by
    rw [List.perm_ext_iff_of_nodup reg.controls.unique h.nodup]
    intro key
    rw [h.keys key, List.mem_map]
    simp only [lookup, Option.map_eq_some_iff]
    constructor
    · rintro ⟨row, hrow, rfl⟩
      exact ⟨row.2, row, Table.find_eq_some.mpr ⟨hrow, rfl⟩, rfl⟩
    · rintro ⟨control, row, hrow, rfl⟩
      exact ⟨row, Table.find_eq_some.mp hrow⟩
  simpa using hperm.length_eq

/-- What the eviction loop may do: entries go, but only those that were seen finished. -/
structure Evicted (flags : FinishedFlags C) (reg reg' : RunControlRegistry C) : Prop where
  markers : reg'.preCancelled = reg.preCancelled
  time : reg.time ≤ reg'.time
  order : reg.OrderInStep → reg'.OrderInStep
  unmapped : ∀ key, reg.lookup key = none → reg'.lookup key = none
  mapped : ∀ key control, reg.lookup key = some control → reg'.lookup key = some control ∨
    reg'.lookup key = none ∧
      ∃ seenAt, reg.time ≤ seenAt ∧ seenAt < reg'.time ∧ flags.isFinished seenAt control = true

theorem Evicted.wait {reg : RunControlRegistry C} {time : ℕ} (h : reg.time ≤ time) :
    Evicted flags reg { reg with time := time } := by
  constructor
  · rfl
  · exact h
  · exact fun hstep => ⟨hstep.nodup, hstep.keys⟩
  · exact fun _ hnone => hnone
  · exact fun _ _ hsome => Or.inl hsome

theorem Evicted.trans {a b c : RunControlRegistry C} (hab : Evicted flags a b)
    (hbc : Evicted flags b c) : Evicted flags a c := by
  constructor
  · exact hbc.markers.trans hab.markers
  · exact hab.time.trans hbc.time
  · exact fun h => hbc.order (hab.order h)
  · exact fun key h => hbc.unmapped key (hab.unmapped key h)
  · intro key control h
    rcases hab.mapped key control h with hb | ⟨hb, seenAt, hle, hlt, hseen⟩
    · rcases hbc.mapped key control hb with hc | ⟨hc, seenAt, hle, hlt, hseen⟩
      · exact Or.inl hc
      · exact Or.inr ⟨hc, seenAt, hab.time.trans hle, hlt, hseen⟩
    · exact Or.inr ⟨hbc.unmapped key hb, seenAt, hle, hlt.trans_le hbc.time, hseen⟩

theorem Evicted.remove {reg : RunControlRegistry C} {index seenAt time : ℕ} {expired : RunKey}
    {control : C} (hindex : reg.controlOrder[index]? = some expired)
    (hcontrol : reg.lookup expired = some control) (hle : reg.time ≤ seenAt) (hlt : seenAt < time)
    (hseen : flags.isFinished seenAt control = true) :
    Evicted flags reg { reg with
      controls := reg.controls.delete fun row => row.1 = expired
      controlOrder := reg.controlOrder.eraseIdx index
      time := time } := by
  have hlookup : ∀ key, ((reg.controls.delete fun row => row.1 = expired).find key).map Prod.snd =
      if expired = key then none else reg.lookup key := by
    intro key
    rw [Table.find_delete_key]
    split_ifs <;> rfl
  constructor
  · rfl
  · exact hle.trans hlt.le
  · intro h
    obtain ⟨hlen, rfl⟩ := List.getElem?_eq_some_iff.mp hindex
    have herase : reg.controlOrder.eraseIdx index =
        reg.controlOrder.erase reg.controlOrder[index] := (h.nodup.erase_getElem index hlen).symm
    constructor
    · exact h.nodup.sublist (List.eraseIdx_sublist _ _)
    · intro key
      simp only [lookup, hlookup, herase, h.nodup.mem_erase_iff, h.keys key]
      split_ifs with hkey
      · simp [hkey]
      · simp [Ne.symm hkey]
  · intro key hnone
    unfold lookup
    rw [hlookup, hnone, ite_self]
  · intro key other hother
    unfold lookup
    rw [hlookup]
    split_ifs with hkey
    · subst hkey
      rw [hcontrol] at hother
      obtain rfl := Option.some.inj hother
      exact Or.inr ⟨rfl, seenAt, hle, hlt, hseen⟩
    · exact Or.inl hother

theorem evicted_evict (excess : ℕ) (reg : RunControlRegistry C) :
    Evicted flags reg (evict flags excess reg) := by
  induction excess generalizing reg with
  | zero => exact Evicted.wait le_rfl
  | succ excess ih =>
    have hle : reg.time ≤ (firstFinished flags reg.controls reg.time reg.controlOrder).2 :=
      le_firstFinished
    simp only [evict]
    split
    · rename_i time hsearch
      exact Evicted.wait (by simpa [hsearch] using hle)
    · rename_i index time hsearch
      obtain ⟨key, control, seenAt, hkey, hcontrol, hle, hlt, hseen⟩ :=
        firstFinished_some (by rw [hsearch])
      rw [hsearch] at hlt
      simp only [hkey]
      exact (Evicted.remove hkey hcontrol hle hlt hseen).trans (ih _)

/-- The loop ends within the bound, or with every control that is left seen unfinished. -/
theorem evict_bound {excess : ℕ} {reg : RunControlRegistry C} (h : reg.OrderInStep)
    (hexcess : reg.controlOrder.length ≤ maxRecentRunControls + excess) :
    (evict flags excess reg).controlOrder.length ≤ maxRecentRunControls ∨
      ∃ seenAt, reg.time ≤ seenAt ∧ seenAt ≤ (evict flags excess reg).time ∧
        ∀ key control, (evict flags excess reg).lookup key = some control →
          flags.isFinished seenAt control = false := by
  induction excess generalizing reg with
  | zero => exact Or.inl hexcess
  | succ excess ih =>
    have hle : reg.time ≤ (firstFinished flags reg.controls reg.time reg.controlOrder).2 :=
      le_firstFinished
    simp only [evict]
    split
    · rename_i time hsearch
      rw [hsearch] at hle
      refine Or.inr ⟨reg.time, le_rfl, hle, fun key control hcontrol => ?_⟩
      exact firstFinished_none (by rw [hsearch]) key ((h.keys key).mpr ⟨control, hcontrol⟩) control
        hcontrol
    · rename_i index time hsearch
      obtain ⟨key, control, seenAt, hkey, hcontrol, hseenle, hlt, hseen⟩ :=
        firstFinished_some (by rw [hsearch])
      rw [hsearch] at hlt
      have hround := Evicted.remove hkey hcontrol hseenle hlt hseen
      have hlen := (List.getElem?_eq_some_iff.mp hkey).1
      simp only [hkey]
      rcases ih (hround.order h) (by simp only [List.length_eraseIdx]; split_ifs; omega) with
        hbound | ⟨last, hlast, hrest⟩
      · exact Or.inl hbound
      · exact Or.inr ⟨last, hround.time.trans hlast, hrest⟩

@[simp] theorem lookup_inserted (reg : RunControlRegistry C) (key : RunKey) (control : C)
    (k : RunKey) :
    (reg.inserted key control).lookup k = if key = k then some control else reg.lookup k := by
  simp only [lookup, inserted, Table.find_put]
  split_ifs <;> rfl

theorem OrderInStep.inserted {reg : RunControlRegistry C} (h : reg.OrderInStep) (key : RunKey)
    (control : C) : (reg.inserted key control).OrderInStep := by
  constructor
  · show (reg.controlOrder.erase key ++ [key]).Nodup
    rw [List.nodup_append]
    refine ⟨h.nodup.erase key, List.nodup_singleton key, fun a ha b hb hab => ?_⟩
    rw [hab, List.mem_singleton.mp hb] at ha
    exact absurd rfl (h.nodup.mem_erase_iff.mp ha).1
  · intro k
    rw [lookup_inserted]
    show k ∈ reg.controlOrder.erase key ++ [key] ↔ _
    rw [List.mem_append, List.mem_singleton, h.nodup.mem_erase_iff, h.keys k]
    split_ifs with hk
    · simp [hk]
    · simp [Ne.symm hk]

/-- The queue of the controls is in step with the map, and the markers are bounded. -/
structure Inv (reg : RunControlRegistry C) : Prop where
  order : reg.OrderInStep
  markersNodup : reg.preCancelled.Nodup
  markersBound : reg.preCancelled.length ≤ maxPreCancelledRuns

/-- What one call can do. -/
inductive Stepped (flags : FinishedFlags C) (reg : RunControlRegistry C) :
    Call C → Reply C → RunControlRegistry C → Prop
  | refused {key : RunKey} {control : C} (hmarked : key ∈ reg.preCancelled) :
    Stepped flags reg (.register key control) (.registered false)
      { reg with preCancelled := reg.preCancelled.erase key }
  | accepted {key : RunKey} {control : C} {reg' : RunControlRegistry C}
    (hfree : key ∉ reg.preCancelled)
    (hevicted : Evicted flags (reg.inserted key control) reg')
    (hbound : reg.OrderInStep → reg'.controlOrder.length ≤ maxRecentRunControls ∨
      ∃ seenAt, reg.time ≤ seenAt ∧ seenAt ≤ reg'.time ∧
        ∀ k c, reg'.lookup k = some c → flags.isFinished seenAt c = false) :
    Stepped flags reg (.register key control) (.registered true) reg'
  | mapped {key : RunKey} {control : C} (hmapped : reg.lookup key = some control) :
    Stepped flags reg (.findOrPreCancel key) (.found (some control)) reg
  | already {key : RunKey} (hnone : reg.lookup key = none) (hmarked : key ∈ reg.preCancelled) :
    Stepped flags reg (.findOrPreCancel key) (.found none) reg
  | marked {key : RunKey} (hnone : reg.lookup key = none) (hfree : key ∉ reg.preCancelled) :
    Stepped flags reg (.findOrPreCancel key) (.found none) (reg.marked key)

theorem stepped_step (reg : RunControlRegistry C) (call : Call C) :
    Stepped flags reg call (reg.step flags call).1 (reg.step flags call).2 := by
  cases call with
  | register key control =>
    simp only [step, register]
    split_ifs with hmarked
    · exact Stepped.refused hmarked
    · apply Stepped.accepted hmarked (evicted_evict _ _)
      intro h
      exact evict_bound (h.inserted key control) (by omega)
  | findOrPreCancel key =>
    simp only [step, findOrPreCancel]
    cases hlookup : reg.lookup key with
    | some control => exact Stepped.mapped hlookup
    | none =>
      simp only
      split_ifs with hmarked
      · exact Stepped.already hlookup hmarked
      · exact Stepped.marked hlookup hmarked

theorem Inv.init : Inv ({} : RunControlRegistry C) := by
  constructor
  · exact ⟨List.nodup_nil, fun key => by simp [lookup, Table.empty, Table.find]⟩
  · exact List.nodup_nil
  · exact Nat.zero_le _

theorem Inv.marked {reg : RunControlRegistry C} (h : reg.Inv) {key : RunKey}
    (hfree : key ∉ reg.preCancelled) : (reg.marked key).Inv := by
  constructor
  · exact ⟨h.order.nodup, h.order.keys⟩
  · apply List.Nodup.sublist (List.drop_sublist _ _)
    rw [List.nodup_append]
    refine ⟨h.markersNodup, List.nodup_singleton key, fun a ha b hb hab => hfree ?_⟩
    rwa [← List.mem_singleton.mp hb, ← hab]
  · simp only [RunControlRegistry.marked, List.length_drop]
    omega

theorem Inv.stepped {reg reg' : RunControlRegistry C} {call : Call C} {reply : Reply C}
    (h : reg.Inv) (hstep : Stepped flags reg call reply reg') : reg'.Inv := by
  cases hstep with
  | refused hmarked =>
    exact ⟨⟨h.order.nodup, h.order.keys⟩, h.markersNodup.erase _,
      (List.length_erase_le).trans h.markersBound⟩
  | accepted hfree hevicted hbound =>
    constructor
    · exact hevicted.order (h.order.inserted _ _)
    · exact hevicted.markers ▸ h.markersNodup
    · exact hevicted.markers ▸ h.markersBound
  | mapped => exact h
  | already => exact h
  | marked hnone hfree => exact h.marked hfree

theorem Inv.run {reg : RunControlRegistry C} (h : reg.Inv) (calls : List (Call C)) :
    (reg.run flags calls).Inv := by
  induction calls generalizing reg with
  | nil => exact h
  | cons call rest ih => exact ih (h.stepped (stepped_step reg call))

/-- A control leaves the map when its key is registered anew, or after it was seen finished. -/
theorem Stepped.removed {reg reg' : RunControlRegistry C} {call : Call C} {reply : Reply C}
    (hstep : Stepped flags reg call reply reg') {key : RunKey} {control : C}
    (hbefore : reg.lookup key = some control) (hafter : reg'.lookup key ≠ some control) :
    (∃ new, call = .register key new ∧ reply = .registered true) ∨
      ∃ seenAt, reg.time ≤ seenAt ∧ seenAt < reg'.time ∧
        flags.isFinished seenAt control = true := by
  cases hstep with
  | refused => exact absurd hbefore hafter
  | @accepted k new _ hfree hevicted hbound =>
    by_cases hk : k = key
    · subst hk
      exact Or.inl ⟨new, rfl, rfl⟩
    · rcases hevicted.mapped key control (by rw [lookup_inserted, if_neg hk, hbefore]) with
        hsome | ⟨-, hseen⟩
      · exact absurd hsome hafter
      · exact Or.inr hseen
  | mapped => exact absurd hbefore hafter
  | already => exact absurd hbefore hafter
  | marked => exact absurd hbefore hafter

/-- After an accepted registration the map is within its bound, apart from controls that were
seen unfinished. -/
theorem Stepped.bound {reg reg' : RunControlRegistry C} {call : Call C} (h : reg.Inv)
    (hstep : Stepped flags reg call (.registered true) reg') :
    ∃ seenAt, reg.time ≤ seenAt ∧ seenAt ≤ reg'.time ∧ reg'.controls.rows.length ≤
      maxRecentRunControls + reg'.controls.count fun row => !flags.isFinished seenAt row.2 := by
  have h' := h.stepped hstep
  cases hstep with
  | accepted hfree hevicted hbound =>
    rw [h'.order.length]
    rcases hbound h.order with hlen | ⟨seenAt, hle, hle', hseen⟩
    · exact ⟨reg.time, le_rfl, hevicted.time, hlen.trans (Nat.le_add_right _ _)⟩
    · refine ⟨seenAt, hle, hle', ?_⟩
      have hall : reg'.controls.count (fun row => !flags.isFinished seenAt row.2) =
          reg'.controls.rows.length := by
        apply List.countP_eq_length.mpr
        intro row hrow
        have hlookup : reg'.lookup row.1 = some row.2 := by
          rw [lookup, Table.find_eq_some.mpr ⟨hrow, rfl⟩]
          rfl
        rw [hseen row.1 row.2 hlookup]
        rfl
      rw [hall, h'.order.length]
      exact Nat.le_add_left _ _

/-- Only an accepted registration changes the map. -/
theorem Stepped.controls {reg reg' : RunControlRegistry C} {call : Call C} {reply : Reply C}
    (hstep : Stepped flags reg call reply reg') (hreply : reply ≠ .registered true) :
    reg'.controls = reg.controls := by
  cases hstep with
  | accepted => exact absurd rfl hreply
  | refused => rfl
  | mapped => rfl
  | already => rfl
  | marked => rfl

theorem Stepped.lookup {reg reg' : RunControlRegistry C} {call : Call C} {reply : Reply C}
    (hstep : Stepped flags reg call reply reg') {key : RunKey} {control : C}
    (h : reg'.lookup key = some control) :
    ((acceptedRegistration call reply).lookup key).or (reg.lookup key) = some control := by
  cases hstep with
  | refused => exact h
  | @accepted k new _ hfree hevicted hbound =>
    have hinserted : (reg.inserted k new).lookup key = some control := by
      cases hbefore : (reg.inserted k new).lookup key with
      | none =>
        rw [hevicted.unmapped key hbefore] at h
        cases h
      | some old =>
        rcases hevicted.mapped key old hbefore with hsome | ⟨hnone, -⟩
        · rw [← hsome, h]
        · rw [hnone] at h
          cases h
    rw [lookup_inserted] at hinserted
    split_ifs at hinserted with hk
    · simpa [acceptedRegistration, hk] using hinserted
    · simpa [acceptedRegistration, List.lookup_cons, beq_eq_false_iff_ne.mpr (Ne.symm hk)]
        using hinserted
  | mapped => exact h
  | already => exact h
  | marked => exact h

/-- A mapped control is the one of the latest accepted registration of its key. -/
theorem lookup_run {reg : RunControlRegistry C} {calls : List (Call C)} {key : RunKey} {control : C}
    (h : (reg.run flags calls).lookup key = some control) :
    ((acceptedRegistrations flags reg calls).lookup key).or (reg.lookup key) = some control := by
  induction calls generalizing reg with
  | nil => exact h
  | cons call rest ih =>
    have hrest := ih h
    simp only [acceptedRegistrations, List.lookup_append]
    cases hlater : (acceptedRegistrations flags (reg.step flags call).2 rest).lookup key with
    | some later => simpa [hlater] using hrest
    | none =>
      rw [hlater, Option.none_or] at hrest
      rw [Option.none_or]
      exact (stepped_step reg call).lookup hrest

/-- The markers behind the one of a key are all new ones. -/
def WaitsBehind (reg : RunControlRegistry C) (key : RunKey) (newer : List RunKey) : Prop :=
  ∃ front back, reg.preCancelled = front ++ key :: back ∧ ∀ k ∈ back, k ∈ newer

/-- The number of other runs among some keys. -/
def othersThan (key : RunKey) (keys : List RunKey) : ℕ := (keys.filter (· ≠ key)).dedup.length

theorem length_le_othersThan {keys back : List RunKey} {key : RunKey} (hnodup : back.Nodup)
    (hback : ∀ k ∈ back, k ≠ key ∧ k ∈ keys) : back.length ≤ othersThan key keys := by
  apply List.Subperm.length_le
  apply List.subperm_of_subset hnodup
  intro k hk
  rw [List.mem_dedup, List.mem_filter]
  exact ⟨(hback k hk).2, by simpa using (hback k hk).1⟩

theorem othersThan_append_left (key : RunKey) (keys later : List RunKey) :
    othersThan key keys ≤ othersThan key (keys ++ later) := by
  apply length_le_othersThan (List.nodup_dedup _)
  intro k hk
  rw [List.mem_dedup, List.mem_filter] at hk
  exact ⟨by simpa using hk.2, List.mem_append_left _ hk.1⟩

/-- A new marker pushes an older one out only when it is one of too many. -/
theorem WaitsBehind.marked {reg : RunControlRegistry C} (hinv : reg.Inv) {key other : RunKey}
    {newer : List RunKey} (h : reg.WaitsBehind key newer) (hfree : other ∉ reg.preCancelled)
    (hfew : othersThan key (newer ++ [other]) < maxPreCancelledRuns) :
    (reg.marked other).WaitsBehind key (newer ++ [other]) := by
  obtain ⟨front, back, heq, hback⟩ := h
  have hbound := hinv.markersBound
  have hnodup := hinv.markersNodup
  have hnew : ∀ k ∈ back ++ [other], k ∈ newer ++ [other] := by
    intro k hk
    rcases List.mem_append.mp hk with hk | hk
    · exact List.mem_append_left _ (hback k hk)
    · exact List.mem_append_right _ hk
  rw [heq] at hbound hnodup hfree
  have hnodup' : (key :: (back ++ [other])).Nodup := by
    rw [← List.cons_append, List.nodup_append]
    refine ⟨(List.nodup_append.mp hnodup).2.1, List.nodup_singleton other, fun a ha b hb hab => ?_⟩
    rw [hab, List.mem_singleton.mp hb] at ha
    exact hfree (List.mem_append_right _ ha)
  have hlen := length_le_othersThan (List.nodup_cons.mp hnodup').2 fun k hk =>
    (⟨fun hkey => (List.nodup_cons.mp hnodup').1 (hkey ▸ hk), hnew k hk⟩ :
      k ≠ key ∧ k ∈ newer ++ [other])
  simp only [List.length_append, List.length_cons] at hbound hlen
  refine ⟨front.drop (front.length + back.length + 2 - maxPreCancelledRuns), back ++ [other],
    ?_, hnew⟩
  have hdrop : (front ++ key :: back ++ [other]).length - maxPreCancelledRuns =
      front.length + back.length + 2 - maxPreCancelledRuns := by
    simp only [List.length_append, List.length_cons, List.length_nil]
    omega
  simp only [RunControlRegistry.marked, heq]
  rw [hdrop, List.append_assoc, List.drop_append_of_le_length (by omega), List.cons_append]

theorem WaitsBehind.erase {reg : RunControlRegistry C} {key other : RunKey} {newer : List RunKey}
    (h : reg.WaitsBehind key newer) (hne : other ≠ key) :
    { reg with preCancelled := reg.preCancelled.erase other }.WaitsBehind key newer := by
  obtain ⟨front, back, heq, hback⟩ := h
  by_cases hmem : other ∈ front
  · exact ⟨front.erase other, back, by simp only [heq, List.erase_append_left _ hmem], hback⟩
  · refine ⟨front, back.erase other, ?_, fun k hk => hback k (List.mem_of_mem_erase hk)⟩
    simp only [heq]
    rw [List.erase_append_right _ hmem, List.erase_cons_tail (by simpa using Ne.symm hne)]

/-- A marker stays until its run registers, while few enough other runs get one. -/
theorem waitsBehind_run {reg : RunControlRegistry C} (hinv : reg.Inv) {key : RunKey}
    {newer : List RunKey} (h : reg.WaitsBehind key newer) {calls : List (Call C)}
    (hcalls : ∀ control, Call.register key control ∉ calls)
    (hfew : othersThan key (newer ++ newMarkers flags reg calls) < maxPreCancelledRuns) :
    key ∈ (reg.run flags calls).preCancelled := by
  induction calls generalizing reg newer with
  | nil =>
    obtain ⟨front, back, heq, -⟩ := h
    show key ∈ reg.preCancelled
    simp [heq]
  | cons call rest ih =>
    have hstep : Stepped flags reg call _ _ := stepped_step reg call
    have hinv' := hinv.stepped hstep
    have hrest : ∀ control, Call.register key control ∉ rest :=
      fun control hmem => hcalls control (List.mem_cons_of_mem _ hmem)
    simp only [newMarkers] at hfew
    show key ∈ (run flags (reg.step flags call).2 rest).preCancelled
    generalize (reg.step flags call).2 = reg' at hstep hinv' hfew ⊢
    generalize (reg.step flags call).1 = reply at hstep
    cases hstep with
    | @refused k control hmarked =>
      have hk : k ≠ key := fun hk => hcalls control (hk ▸ List.mem_cons_self)
      exact ih hinv' (h.erase hk) hrest (by simpa [newMarker] using hfew)
    | accepted hfree hevicted hbound =>
      have hwait : reg'.WaitsBehind key newer := by
        obtain ⟨front, back, heq, hback⟩ := h
        exact ⟨front, back, hevicted.markers.trans heq, hback⟩
      exact ih hinv' hwait hrest (by simpa [newMarker] using hfew)
    | mapped hmapped => exact ih hinv' h hrest (by simpa [newMarker, hmapped] using hfew)
    | already hnone hmarked => exact ih hinv' h hrest (by simpa [newMarker, hmarked] using hfew)
    | @marked k hnone hfree =>
      have hnew : reg.newMarker (.findOrPreCancel k) = [k] := by simp [newMarker, hnone, hfree]
      rw [hnew, ← List.append_assoc] at hfew
      apply ih hinv' _ hrest hfew
      exact h.marked hinv hfree ((othersThan_append_left key _ _).trans_lt hfew)

/-- The marker of a run that is cancelled first. -/
theorem waitsBehind_marked {reg : RunControlRegistry C} {key : RunKey} :
    (reg.marked key).WaitsBehind key [] := by
  refine ⟨reg.preCancelled.drop (reg.preCancelled.length + 1 - maxPreCancelledRuns), [], ?_,
    fun k hk => absurd hk List.not_mem_nil⟩
  have hle : reg.preCancelled.length + 1 - maxPreCancelledRuns ≤ reg.preCancelled.length := by
    simp only [maxPreCancelledRuns]
    omega
  simp only [marked, List.length_append, List.length_singleton]
  rw [List.drop_append_of_le_length hle]

/-- What holds of the registry after any calls, whenever the controls finish. -/
theorem registry_after_calls (flags : FinishedFlags C) (calls : List (Call C)) :
    let reg := run flags {} calls
    reg.OrderInStep ∧
    (∀ call key control, reg.lookup key = some control →
      (reg.step flags call).2.lookup key ≠ some control →
      (∃ new, call = .register key new ∧ (reg.step flags call).1 = .registered true) ∨
        ∃ seenAt, reg.time ≤ seenAt ∧ seenAt < (reg.step flags call).2.time ∧
          flags.isFinished seenAt control = true) ∧
    (∀ call, (reg.step flags call).1 = .registered true →
      ∃ seenAt, reg.time ≤ seenAt ∧ seenAt ≤ (reg.step flags call).2.time ∧
        (reg.step flags call).2.controls.rows.length ≤ maxRecentRunControls +
          (reg.step flags call).2.controls.count fun row => !flags.isFinished seenAt row.2) ∧
    (∀ call, (reg.step flags call).1 ≠ .registered true →
      (reg.step flags call).2.controls = reg.controls) ∧
    (∀ key control, reg.lookup key = some control →
      (reg.step flags (.findOrPreCancel key)).1 = .found (some control) ∧
        (acceptedRegistrations flags {} calls).lookup key = some control) ∧
    ∀ key later, (reg.step flags (.findOrPreCancel key)).1 = .found none →
      key ∉ reg.preCancelled → (∀ control, Call.register key control ∉ later) →
      othersThan key (newMarkers flags (reg.step flags (.findOrPreCancel key)).2 later) <
        maxPreCancelledRuns →
      ∀ control, let reg' := run flags (reg.step flags (.findOrPreCancel key)).2 later
        (reg'.step flags (.register key control)).1 = .registered false ∧
          key ∉ (reg'.step flags (.register key control)).2.preCancelled := by
  intro reg
  have hinv : reg.Inv := Inv.init.run calls
  constructor
  · exact hinv.order
  constructor
  · exact fun call key control => (stepped_step reg call).removed
  constructor
  · exact fun call hreply => (hreply ▸ stepped_step reg call).bound hinv
  constructor
  · exact fun call => (stepped_step reg call).controls
  constructor
  · intro key control hmapped
    constructor
    · simp only [step, findOrPreCancel, hmapped]
    · have hlatest := lookup_run hmapped
      rwa [show ({} : RunControlRegistry C).lookup key = none from rfl, Option.or_none] at hlatest
  · intro key later hnone hfree hlater hfew control reg'
    have hmarked : (reg.step flags (.findOrPreCancel key)).2 = reg.marked key := by
      have hstep : Stepped flags reg (.findOrPreCancel key) _ _ :=
        stepped_step reg (.findOrPreCancel key)
      rw [hnone] at hstep
      generalize (reg.step flags (.findOrPreCancel key)).2 = next at hstep
      cases hstep with
      | already _ hmarked => exact absurd hmarked hfree
      | marked => rfl
    have hinv' : (reg.marked key).Inv := hinv.marked hfree
    have hwaits : key ∈ reg'.preCancelled := by
      simp only [reg', hmarked] at hfew ⊢
      exact waitsBehind_run hinv' waitsBehind_marked hlater (by simpa using hfew)
    simp only [step, register, if_pos hwaits]
    refine ⟨trivial, fun hmem => ?_⟩
    have hnodup : reg'.preCancelled.Nodup := by
      simp only [reg', hmarked]
      exact (hinv'.run later).markersNodup
    exact absurd rfl (hnodup.mem_erase_iff.mp hmem).1

/-- Controls that all finish at one time. -/
def finishAt (last : ℕ) : FinishedFlags ℕ where
  isFinished time _ := decide (last ≤ time)
  mono time _ h := by
    rw [decide_eq_true_eq] at h ⊢
    exact h.trans (Nat.le_succ time)

/-- The run that is named by one character. -/
def runKey (n : ℕ) : RunKey := ("s".toList, [Char.ofNat (n + 48)])

/-- After 65 registrations that finish later, the map is over its bound until the next one; and
a second cancellation of a run does not renew its marker, so that a single other one pushes it
out. -/
theorem registry_bounds_are_lazy :
    (¬∀ (calls : List (Call ℕ)) (now : ℕ), (run (finishAt 100) {} calls).time ≤ now →
      (run (finishAt 100) {} calls).controls.rows.length ≤ maxRecentRunControls +
        (run (finishAt 100) {} calls).controls.count fun row =>
          !(finishAt 100).isFinished now row.2) ∧
    ¬∀ (calls later : List (Call ℕ)) (key : RunKey) (control : ℕ),
      ((run (finishAt 100) {} calls).step (finishAt 100) (.findOrPreCancel key)).1 = .found none →
      (∀ control, Call.register key control ∉ later) →
      othersThan key (newMarkers (finishAt 100)
        ((run (finishAt 100) {} calls).step (finishAt 100) (.findOrPreCancel key)).2 later) <
          maxPreCancelledRuns →
      ((run (finishAt 100)
        ((run (finishAt 100) {} calls).step (finishAt 100) (.findOrPreCancel key)).2 later).step
          (finishAt 100) (.register key control)).1 = .registered false := by
  constructor
  · intro h
    exact absurd (h ((List.range 65).map fun n => .register (runKey n) n) 100 (by decide +kernel))
      (by decide +kernel)
  · intro h
    have hlate := h ((List.range 64).map fun n => .findOrPreCancel (runKey n))
      [.findOrPreCancel (runKey 64)] (runKey 0) 0 (by decide +kernel) (by simp) (by decide +kernel)
    revert hlate
    decide +kernel

end RunControlRegistry
end DeepseekScience.Api
