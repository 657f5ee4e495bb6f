import Mathlib.Tactic

/-! A loop over a bounded number of attempts. What an attempt comes to decides whether there is
another one, after a delay; the last failure is the one that is reported. -/
namespace Attempts

/-- What an attempt comes to. -/
inductive Verdict (α ε : Type*) where
  | done (a : α)
  | fail (e : ε)
  /-- A failure that may pass: try again after the delay. -/
  | again (delay : ℕ) (e : ε)

variable {α ε S : Type*} {attempt : ℕ → S → Verdict α ε × S} {wait : ℕ → S → S}

/-- The attempts from the `n`-th on, of which `left` more may follow it. -/
def loop (attempt : ℕ → S → Verdict α ε × S) (wait : ℕ → S → S) :
    ℕ → ℕ → S → Except ε α × S
  | 0, n, s =>
    match attempt n s with
    | (.done a, s') => (.ok a, s')
    | (.fail e, s') => (.error e, s')
    | (.again _ e, s') => (.error e, s')
  | left + 1, n, s =>
    match attempt n s with
    | (.done a, s') => (.ok a, s')
    | (.fail e, s') => (.error e, s')
    | (.again delay _, s') => loop attempt wait left (n + 1) (wait delay s')

/-- What holds when an attempt ends the loop, and is kept by another attempt in front, holds of
the whole loop. -/
theorem loop_rule {P : S → Except ε α → S → Prop}
    (hdone : ∀ n s a s', attempt n s = (.done a, s') → P s (.ok a) s')
    (hfail : ∀ n s e s', attempt n s = (.fail e, s') → P s (.error e) s')
    (hlast : ∀ n s delay e s', attempt n s = (.again delay e, s') → P s (.error e) s')
    (hagain : ∀ n s delay e s' r s'', attempt n s = (.again delay e, s') →
      P (wait delay s') r s'' → P s r s'')
    (left n : ℕ) (s : S) :
    P s (loop attempt wait left n s).1 (loop attempt wait left n s).2 := by
  induction left generalizing n s with
  | zero =>
    unfold loop
    cases h : attempt n s with
    | mk verdict s' =>
      cases verdict with
      | done a => exact hdone n s a s' h
      | fail e => exact hfail n s e s' h
      | again delay e => exact hlast n s delay e s' h
  | succ left ih =>
    unfold loop
    cases h : attempt n s with
    | mk verdict s' =>
      cases verdict with
      | done a => exact hdone n s a s' h
      | fail e => exact hfail n s e s' h
      | again delay e => exact hagain n s delay e s' _ _ h (ih (n + 1) (wait delay s'))

/-- What the attempts cost, when each costs so much at most and waiting nothing. -/
theorem loop_cost (cost : S → ℕ) (bound : ℕ)
    (hattempt : ∀ n s, cost (attempt n s).2 ≤ cost s + bound)
    (hwait : ∀ delay s, cost (wait delay s) = cost s) (left n : ℕ) (s : S) :
    cost (loop attempt wait left n s).2 ≤ cost s + (left + 1) * bound := by
  induction left generalizing n s with
  | zero =>
    have hcost := hattempt n s
    unfold loop
    cases h : attempt n s with
    | mk verdict s' => cases verdict <;> simp_all
  | succ left ih =>
    have hcost := hattempt n s
    have hmul : (left + 1 + 1) * bound = (left + 1) * bound + bound := by ring
    unfold loop
    cases h : attempt n s with
    | mk verdict s' =>
      rw [h] at hcost
      cases verdict with
      | again delay e =>
        have hrest := ih (n + 1) (wait delay s')
        rw [hwait] at hrest
        simp only at hcost ⊢
        omega
      | _ =>
        simp only at hcost ⊢
        omega

end Attempts
