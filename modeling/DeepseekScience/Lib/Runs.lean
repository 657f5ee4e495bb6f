import Mathlib.Tactic

/-! Runs of a machine over a sequence of operations: invariants of a run whose steps are guarded,
and when a property holds in every state on the way. -/
namespace Runs

variable {S O : Type*} {step : S → O → S} {s : S} {os os' : List O} {P Inv : S → Prop}
  {Guard Q : S → O → Prop}

/-- The state behind a sequence of operations. -/
def run (step : S → O → S) (s : S) (os : List O) : S := os.foldl step s

/-- Every operation of the sequence is applied in a state that it has the relation to. -/
def AllSteps (step : S → O → S) (Q : S → O → Prop) : S → List O → Prop
  | _, [] => True
  | s, o :: os => Q s o ∧ AllSteps step Q (step s o) os

/-- The property holds at the beginning and behind every operation. -/
def Always (step : S → O → S) (P : S → Prop) : S → List O → Prop
  | s, [] => P s
  | s, o :: os => P s ∧ Always step P (step s o) os

@[simp] theorem run_nil : run step s [] = s := rfl

@[simp] theorem run_cons (o : O) : run step s (o :: os) = run step (step s o) os := rfl

theorem run_append : run step s (os ++ os') = run step (run step s os) os' := List.foldl_append

/-- An element of a sequence that got one more is that one, or of the sequence before. -/
theorem concat_eq_split {o o' : O} {before after : List O} : os ++ [o] = before ++ o' :: after ↔
    (after = [] ∧ before = os ∧ o' = o) ∨
      ∃ rest, after = rest ++ [o] ∧ os = before ++ o' :: rest := by
  constructor
  · intro h
    obtain rfl | ⟨rest, last, rfl⟩ := after.eq_nil_or_concat
    · obtain ⟨hinit, hlast⟩ := List.append_inj' h rfl
      exact Or.inl ⟨rfl, hinit.symm, (List.cons.inj hlast).1.symm⟩
    · rw [List.concat_eq_append, ← List.cons_append, ← List.append_assoc] at h
      obtain ⟨hinit, hlast⟩ := List.append_inj' h rfl
      rw [(List.cons.inj hlast).1]
      exact Or.inr ⟨rest, List.concat_eq_append, hinit⟩
  · rintro (⟨rfl, rfl, rfl⟩ | ⟨rest, rfl, rfl⟩) <;> simp

theorem allSteps_append : AllSteps step Q s (os ++ os') ↔
    AllSteps step Q s os ∧ AllSteps step Q (run step s os) os' := by
  induction os generalizing s with
  | nil => simp [AllSteps]
  | cons o os ih => simp only [List.cons_append, AllSteps, ih, and_assoc, run_cons]

/-- An invariant that guarded steps keep holds behind every run of guarded steps. -/
theorem run_invariant (hstep : ∀ s o, Inv s → Guard s o → Inv (step s o)) (hs : Inv s)
    (hguard : AllSteps step Guard s os) : Inv (run step s os) := by
  induction os generalizing s with
  | nil => exact hs
  | cons o os ih => exact ih (hstep s o hs hguard.1) hguard.2

theorem allSteps_of_forall (h : ∀ s o, Q s o) : AllSteps step Q s os := by
  induction os generalizing s with
  | nil => trivial
  | cons o os ih => exact ⟨h s o, ih⟩

theorem allSteps_of_mem (h : ∀ o ∈ os, ∀ s, Q s o) : AllSteps step Q s os := by
  induction os generalizing s with
  | nil => trivial
  | cons o os ih =>
    obtain ⟨hfirst, hrest⟩ := List.forall_mem_cons.mp h
    exact ⟨hfirst s, ih hrest⟩

theorem allSteps_true : AllSteps step (fun _ _ => True) s os :=
  allSteps_of_forall fun _ _ => trivial

/-- What an invariant says of every guarded operation holds of every step of a guarded run. -/
theorem allSteps_of_guarded (hstep : ∀ s o, Inv s → Guard s o → Inv (step s o))
    (hQ : ∀ s o, Inv s → Guard s o → Q s o) (hs : Inv s) (hguard : AllSteps step Guard s os) :
    AllSteps step Q s os := by
  induction os generalizing s with
  | nil => trivial
  | cons o os ih => exact ⟨hQ s o hs hguard.1, ih (hstep s o hs hguard.1) hguard.2⟩

/-- What an invariant says of every state holds all the way through a guarded run. -/
theorem always_of_guarded (hstep : ∀ s o, Inv s → Guard s o → Inv (step s o))
    (hP : ∀ s, Inv s → P s) (hs : Inv s) (hguard : AllSteps step Guard s os) :
    Always step P s os := by
  induction os generalizing s with
  | nil => exact hP s hs
  | cons o os ih => exact ⟨hP s hs, ih (hstep s o hs hguard.1) hguard.2⟩

/-- A machine that is a part of another one runs along with it. -/
theorem run_map {S' : Type*} {step' : S' → O → S'} {f : S → S'}
    (hf : ∀ s o, f (step s o) = step' (f s) o) : f (run step s os) = run step' (f s) os := by
  induction os generalizing s with
  | nil => rfl
  | cons o os ih => rw [run_cons, run_cons, ih, hf]

theorem allSteps_map {S' : Type*} {step' : S' → O → S'} {f : S → S'} {R : S' → O → Prop}
    (hf : ∀ s o, f (step s o) = step' (f s) o) :
    AllSteps step (fun s o => R (f s) o) s os ↔ AllSteps step' R (f s) os := by
  induction os generalizing s with
  | nil => exact Iff.rfl
  | cons o os ih =>
    unfold AllSteps
    rw [ih, hf]

theorem Always.start (h : Always step P s os) : P s := by
  cases os with
  | nil => exact h
  | cons o os => exact h.1

theorem Always.last (h : Always step P s os) : P (run step s os) := by
  induction os generalizing s with
  | nil => exact h
  | cons o os ih => exact ih h.2

/-- A property that guarded steps keep, and that every other step destroys, holds all the way
exactly when all steps are guarded. -/
theorem always_iff (hstep : ∀ s o, Inv s → Guard s o → Inv (step s o))
    (hP : ∀ s, Inv s → P s) (hunguarded : ∀ s o, Inv s → ¬ Guard s o → ¬ P (step s o))
    (hs : Inv s) : Always step P s os ↔ AllSteps step Guard s os := by
  induction os generalizing s with
  | nil => exact ⟨fun _ => trivial, fun _ => hP s hs⟩
  | cons o os ih =>
    by_cases hguard : Guard s o
    · have hrest := ih (hstep s o hs hguard)
      exact ⟨fun h => ⟨hguard, hrest.mp h.2⟩, fun h => ⟨hP s hs, hrest.mpr h.2⟩⟩
    · constructor
      · intro h
        exact absurd h.2.start (hunguarded s o hs hguard)
      · intro h
        exact absurd h.1 hguard

end Runs
