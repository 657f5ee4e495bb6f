import Mathlib.Tactic

/-! Computations over a state that may fail and whose effects stay when they fail, with rules for
what holds before and behind them. -/
namespace Calls

/-- A result or an error, and the state that is left. -/
def Call (σ ε α : Type) := σ → Except ε α × σ

variable {σ ε ε₂ α β : Type}

instance callMonad : Monad (Call σ ε) where
  pure a := fun s => (.ok a, s)
  bind x f := fun s =>
    match x s with
    | (.ok a, s) => f a s
    | (.error e, s) => (.error e, s)

namespace Call

def fail (e : ε) : Call σ ε α := fun s => (.error e, s)

def ofExcept (r : Except ε α) : Call σ ε α := fun s => (r, s)

/-- The result of a computation, also of a failed one. -/
def attempt (x : Call σ ε α) : Call σ ε₂ (Except ε α) := fun s => (.ok (x s).1, (x s).2)

def mapError (f : ε → ε₂) (x : Call σ ε α) : Call σ ε₂ α := fun s => ((x s).1.mapError f, (x s).2)

end Call

/-- From a state with the one property the computation ends in a result and a state with the
other. -/
structure Triple (P : σ → Prop) (x : Call σ ε α) (Q : Except ε α → σ → Prop) : Prop where
  run : ∀ s, P s → Q (x s).1 (x s).2

variable {P P₂ : σ → Prop} {x : Call σ ε α} {f : α → Call σ ε β}

theorem triple_pure {a : α} {Q : Except ε α → σ → Prop} (h : ∀ s, P s → Q (.ok a) s) :
    Triple P (pure a : Call σ ε α) Q := ⟨h⟩

theorem triple_fail {e : ε} {Q : Except ε α → σ → Prop} (h : ∀ s, P s → Q (.error e) s) :
    Triple P (Call.fail e : Call σ ε α) Q := ⟨h⟩

theorem triple_ofExcept {r : Except ε α} {Q : Except ε α → σ → Prop}
    (h : ∀ s, P s → Q r s) : Triple P (Call.ofExcept r : Call σ ε α) Q := ⟨h⟩

/-- What follows starts from what the result has left; an error ends both. -/
theorem triple_bind {R : Except ε α → σ → Prop} {Q : Except ε β → σ → Prop}
    (hx : Triple P x R) (hf : ∀ a, Triple (R (.ok a)) (f a) Q)
    (herror : ∀ e s, R (.error e) s → Q (.error e) s) : Triple P (x >>= f) Q := by
  constructor
  intro s hs
  have hR := hx.run s hs
  simp only [Bind.bind]
  cases hrun : x s with
  | mk r s' =>
    rw [hrun] at hR
    cases r with
    | ok a => exact (hf a).run s' hR
    | error e => exact herror e s' hR

theorem triple_attempt {Q : Except ε α → σ → Prop} (hx : Triple P x Q) :
    Triple P (x.attempt : Call σ ε₂ (Except ε α)) fun r s => ∃ inner, r = .ok inner ∧
      Q inner s :=
  ⟨fun s hs => ⟨(x s).1, rfl, hx.run s hs⟩⟩

theorem triple_mapError {g : ε → ε₂} {Q : Except ε α → σ → Prop} (hx : Triple P x Q) :
    Triple P (x.mapError g) fun r s => ∃ inner, r = inner.mapError g ∧ Q inner s :=
  ⟨fun s hs => ⟨(x s).1, rfl, hx.run s hs⟩⟩

theorem Triple.imp {Q Q₂ : Except ε α → σ → Prop} (h : Triple P x Q)
    (hP : ∀ s, P₂ s → P s) (hQ : ∀ r s, Q r s → Q₂ r s) : Triple P₂ x Q₂ :=
  ⟨fun s hs => hQ _ _ (h.run s (hP s hs))⟩

/-- A computation may be looked at from one state at a time. -/
theorem triple_intro {Q : Except ε α → σ → Prop}
    (h : ∀ s, P s → Triple (· = s) x Q) : Triple P x Q :=
  ⟨fun s hs => (h s hs).run s rfl⟩

end Calls
