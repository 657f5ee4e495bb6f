import Mathlib.Data.Nat.Notation
import Mathlib.Tactic.SplitIfs

/-! Programs over a state that go on with a value or leave early with an exit value, and a
Hoare logic for them: a triple has one postcondition for each of the two ways. -/
namespace Exits

/-- A program over states `σ` that may leave early with an exit of type `ε`. -/
abbrev Prog (σ ε α : Type) := ExceptT ε (StateM σ) α

variable {σ τ ε α β : Type}

/-- An optional step. -/
def onlyIf (c : Prop) [Decidable c] (x : Prog σ ε PUnit) : Prog σ ε PUnit :=
  if c then x else pure ⟨⟩

/-- The result of a program, and the state that it leaves behind. -/
def outcome (x : Prog σ ε α) (s : σ) : Except ε α × σ := (ExceptT.run x).run s

@[simp] theorem outcome_pure (a : α) (s : σ) : outcome (pure a : Prog σ ε α) s = (.ok a, s) := rfl

@[simp] theorem outcome_throw (e : ε) (s : σ) :
    outcome (throw e : Prog σ ε α) s = (.error e, s) := rfl

@[simp] theorem outcome_get (s : σ) : outcome (get : Prog σ ε σ) s = (.ok s, s) := rfl

@[simp] theorem outcome_modify (f : σ → σ) (s : σ) :
    outcome (modify f : Prog σ ε PUnit) s = (.ok ⟨⟩, f s) := rfl

@[simp] theorem outcome_modifyGet (f : σ → α × σ) (s : σ) :
    outcome (modifyGet f : Prog σ ε α) s = (.ok (f s).1, (f s).2) := rfl

theorem outcome_bind (x : Prog σ ε α) (f : α → Prog σ ε β) (s : σ) :
    outcome (x >>= f) s =
      match outcome x s with
      | (.ok a, s') => outcome (f a) s'
      | (.error e, s') => (.error e, s') := by
  rcases hx : outcome x s with ⟨e | a, s'⟩
  all_goals
    simp only [outcome, ExceptT.run_bind, StateT.run_bind] at hx ⊢
    rw [hx]
    rfl

theorem outcome_bind_ok {x : Prog σ ε α} {f : α → Prog σ ε β} {s s' : σ} {a : α}
    (h : outcome x s = (.ok a, s')) : outcome (x >>= f) s = outcome (f a) s' := by
  rw [outcome_bind, h]

/-- `Q` holds of a normal end, and `E` of an early exit. -/
def Ends (Q : α → σ → Prop) (E : ε → σ → Prop) : Except ε α × σ → Prop
  | (.ok a, s) => Q a s
  | (.error e, s) => E e s

/-- From every state with `P`, the program ends with `Q` or leaves with `E`. -/
def Triple (P : σ → Prop) (x : Prog σ ε α) (Q : α → σ → Prop) (E : ε → σ → Prop) : Prop :=
  ∀ s, P s → Ends Q E (outcome x s)

namespace Triple

variable {P P' : σ → Prop} {x : Prog σ ε α} {f : α → Prog σ ε β} {Q Q' : α → σ → Prop}
  {R : β → σ → Prop} {E E' : ε → σ → Prop}

theorem ret {a : α} (h : ∀ s, P s → Q a s) : Triple P (pure a) Q E := h

theorem exit {e : ε} (h : ∀ s, P s → E e s) : Triple P (throw e : Prog σ ε α) Q E := h

theorem bind (hx : Triple P x Q E) (hf : ∀ a, Triple (Q a) (f a) R E) :
    Triple P (x >>= f) R E := by
  intro s hs
  have h := hx s hs
  rw [outcome_bind]
  rcases hr : outcome x s with ⟨e | a, s'⟩
  · rw [hr] at h
    exact h
  · rw [hr] at h
    exact hf a s' h

/-- The first program passes nothing on. -/
theorem seq {x : Prog σ ε PUnit} {y : Prog σ ε β} {M : σ → Prop} (hx : Triple P x (fun _ => M) E)
    (hy : Triple M y R E) : Triple P (x >>= fun _ => y) R E := bind hx fun _ => hy

/-- A fact that does not depend on the state. -/
theorem assume {p : Prop} (h : p → Triple P x Q E) : Triple (fun s => p ∧ P s) x Q E :=
  fun s hs => h hs.1 s hs.2

/-- Reading the state fixes it for the rest of the program. -/
theorem read {f : σ → Prog σ ε β} (h : ∀ s, P s → Triple (· = s) (f s) R E) :
    Triple P (get >>= f) R E := by
  intro s hs
  rw [outcome_bind]
  exact h s hs s rfl

/-- Reading the state, for a program that needs no more of it than the assertion. -/
theorem readKeep {f : σ → Prog σ ε β} (h : ∀ s, P s → Triple P (f s) R E) :
    Triple P (get >>= f) R E := by
  intro s hs
  rw [outcome_bind]
  exact h s hs s hs

theorem update {g : σ → σ} {Q : PUnit → σ → Prop} (h : ∀ s, P s → Q ⟨⟩ (g s)) :
    Triple P (modify g : Prog σ ε PUnit) Q E := h

theorem updateGet {g : σ → α × σ} (h : ∀ s, P s → Q (g s).1 (g s).2) :
    Triple P (modifyGet g : Prog σ ε α) Q E := h

theorem conseq (h : Triple P x Q E) (hP : ∀ s, P' s → P s) (hQ : ∀ a s, Q a s → Q' a s)
    (hE : ∀ e s, E e s → E' e s) : Triple P' x Q' E' := by
  intro s hs
  have hx := h s (hP s hs)
  rcases hr : outcome x s with ⟨e | a, s'⟩
  · rw [hr] at hx
    exact hE e s' hx
  · rw [hr] at hx
    exact hQ a s' hx

theorem pre (h : Triple P x Q E) (hP : ∀ s, P' s → P s) : Triple P' x Q E :=
  h.conseq hP (fun _ _ => id) fun _ _ => id

theorem post (h : Triple P x Q E) (hQ : ∀ a s, Q a s → Q' a s) : Triple P x Q' E :=
  h.conseq (fun _ => id) hQ fun _ _ => id

theorem any : Triple P x (fun _ _ => True) fun _ _ => True := by
  intro s _
  rcases outcome x s with ⟨_ | _, _⟩ <;> trivial

/-- Two triples of one program hold together. -/
theorem both {P₂ : σ → Prop} {Q₂ : α → σ → Prop} {E₂ : ε → σ → Prop} (h : Triple P x Q E)
    (h₂ : Triple P₂ x Q₂ E₂) : Triple (fun s => P s ∧ P₂ s) x (fun a s => Q a s ∧ Q₂ a s)
      (fun e s => E e s ∧ E₂ e s) := by
  intro s hs
  have h := h s hs.1
  have h₂ := h₂ s hs.2
  rcases hr : outcome x s with ⟨e | a, s'⟩
  · rw [hr] at h h₂
    exact ⟨h, h₂⟩
  · rw [hr] at h h₂
    exact ⟨h, h₂⟩

/-- A triple holds when it holds from each single state. -/
theorem of_each (h : ∀ s, P s → Triple (· = s) x Q E) : Triple P x Q E :=
  fun s hs => h s hs s rfl

theorem choose {c : Prop} [Decidable c] {y : Prog σ ε α} (hx : c → Triple P x Q E)
    (hy : ¬ c → Triple P y Q E) : Triple P (if c then x else y) Q E := by
  split_ifs with hc
  · exact hx hc
  · exact hy hc

theorem optional {c : Prop} [Decidable c] {x : Prog σ ε PUnit}
    (h : c → Triple P x (fun _ => P) E) : Triple P (onlyIf c x) (fun _ => P) E :=
  choose h fun _ => ret fun _ => id

/-- A step that always leaves: behind it, its condition does not hold. -/
theorem stopIf {c : Prop} [Decidable c] {x : Prog σ ε PUnit}
    (h : c → Triple P x (fun _ _ => False) E) :
    Triple P (onlyIf c x) (fun _ s => ¬ c ∧ P s) E :=
  choose (fun hc => (h hc).post fun _ _ hf => hf.elim) fun hc => ret fun _ hs => ⟨hc, hs⟩

/-- An assertion about a part of the state is kept by updates of the rest. -/
theorem update_rest {view : σ → τ} {A : τ → Prop} {g : σ → σ} (h : ∀ s, view (g s) = view s) :
    Triple (fun s => A (view s)) (modify g : Prog σ ε PUnit) (fun _ s => A (view s)) E := by
  refine update fun s hs => ?_
  rw [h s]
  exact hs

end Triple
end Exits
