import Mathlib.Tactic

/-! Transactions on a state: a body of checks and writes that either commits as a whole or leaves
the state as it was. -/
namespace Transactions

variable {S ε α β : Type}

/-- Go on only under a condition. -/
def ensure (c : Prop) [Decidable c] (e : ε) : Except ε Unit := if c then .ok () else .error e

theorem ensure_eq_ok {c : Prop} [Decidable c] {e : ε} {u : Unit} :
    ensure c e = .ok u ↔ c := by
  unfold ensure
  split_ifs with h
  · exact ⟨fun _ => h, fun _ => rfl⟩
  · exact ⟨fun he => absurd he (by simp), fun hc => absurd hc h⟩

theorem bind_eq_ok {x : Except ε α} {f : α → Except ε β} {b : β} :
    (x >>= f) = .ok b ↔ ∃ a, x = .ok a ∧ f a = .ok b := by
  cases x with
  | error e => exact ⟨fun h => absurd h (by simp [bind, Except.bind]), fun ⟨_, h, _⟩ => by cases h⟩
  | ok a => exact ⟨fun h => ⟨a, rfl, h⟩, fun ⟨_, h, h'⟩ => by cases h; exact h'⟩

theorem bind_eq_error {x : Except ε α} {f : α → Except ε β} {e : ε} :
    (x >>= f) = .error e ↔ x = .error e ∨ ∃ a, x = .ok a ∧ f a = .error e := by
  cases x with
  | error e' => simp [bind, Except.bind]
  | ok a => simp [bind, Except.bind]

theorem ensure_bind_eq_ok {c : Prop} [Decidable c] {e : ε} {f : Unit → Except ε β} {b : β} :
    (ensure c e >>= f) = .ok b ↔ c ∧ f () = .ok b := by
  rw [bind_eq_ok]
  constructor
  · rintro ⟨⟨⟩, h, hf⟩
    exact ⟨ensure_eq_ok.mp h, hf⟩
  · rintro ⟨hc, hf⟩
    exact ⟨(), ensure_eq_ok.mpr hc, hf⟩

theorem pure_eq_ok {a b : α} : (pure a : Except ε α) = .ok b ↔ a = b := by
  constructor
  · intro h
    exact Except.ok.inj h
  · rintro rfl
    rfl

/-- Run a transaction: commit its state, or roll back. -/
def attempt (tx : Except ε (α × S)) (s : S) : Except ε α × S :=
  match tx with
  | .ok (a, s') => (.ok a, s')
  | .error e => (.error e, s)

/-- What holds of the state and of every state that commits holds behind the transaction. -/
theorem attempt_keeps {tx : Except ε (α × S)} {s : S} {P : S → Prop} (hs : P s)
    (htx : ∀ a s', tx = .ok (a, s') → P s') : P (attempt tx s).2 := by
  unfold attempt
  split
  · exact htx _ _ rfl
  · exact hs

theorem attempt_eq_ok {tx : Except ε (α × S)} {s s' : S} {a : α} :
    attempt tx s = (.ok a, s') ↔ tx = .ok (a, s') := by
  unfold attempt
  rcases tx with e | ⟨a', s''⟩ <;> simp

/-- A transaction that fails changes nothing. -/
theorem attempt_eq_error {tx : Except ε (α × S)} {s s' : S} {e : ε}
    (h : attempt tx s = (.error e, s')) : tx = .error e ∧ s' = s := by
  unfold attempt at h
  rcases tx with e' | ⟨a', s''⟩
  · obtain ⟨he, rfl⟩ := Prod.mk.inj h
    exact ⟨by rw [Except.error.inj he], rfl⟩
  · exact absurd (Prod.mk.inj h).1 (by simp)

end Transactions
