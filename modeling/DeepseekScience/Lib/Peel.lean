import DeepseekScience.Lib.Transaction

/-! Loops that peel one piece after another off a state: the loop of a step that may fail, the
pieces that another step says should come off, and when the first peels exactly the second. -/
namespace Peeling

open Transactions

variable {S B ε : Type}

/-- The pieces that a step peels off a state until it stops, and the state it stops in. -/
inductive Peels (step : S → Option (B × S)) : S → List B → S → Prop
  | stop {s : S} : step s = none → Peels step s [] s
  | next {s s' last : S} {b : B} {bs : List B} :
      step s = some (b, s') → Peels step s' bs last → Peels step s (b :: bs) last

/-- The loop of a step that may fail. Without fuel it is taken to go on for ever. -/
def peel (code : S → Except ε (Option (B × S))) (endless : ε) : ℕ → S → Except ε (List B × S)
  | 0, _ => .error endless
  | fuel + 1, s => do
    match ← code s with
    | none => pure ([], s)
    | some (b, s') => do
      let (bs, last) ← peel code endless fuel s'
      pure (b :: bs, last)

/-- Along the pieces that should come off, the code's step is the step that is asked for. -/
inductive Agrees (code : S → Except ε (Option (B × S))) (step : S → Option (B × S)) : S → Prop
  | stop {s : S} : step s = none → code s = .ok none → Agrees code step s
  | next {s s' : S} {b : B} :
      step s = some (b, s') → code s = .ok (some (b, s')) → Agrees code step s' → Agrees code step s

variable {code : S → Except ε (Option (B × S))} {step : S → Option (B × S)} {endless : ε}
  {s s' last : S} {b : B} {bs : List B} {fuel : ℕ} {size : S → ℕ}

theorem peel_stop (h : code s = .ok none) : peel code endless (fuel + 1) s = .ok ([], s) := by
  rw [peel, h]
  rfl

theorem peel_next (h : code s = .ok (some (b, s'))) :
    peel code endless (fuel + 1) s = (do
      let (bs, last) ← peel code endless fuel s'
      pure (b :: bs, last)) := by
  rw [peel, h]
  rfl

/-- A loop that ends has taken a first step. -/
theorem peel_eq_ok (h : peel code endless (fuel + 1) s = .ok (bs, last)) :
    (code s = .ok none ∧ bs = [] ∧ last = s) ∨
      ∃ b s' bs', code s = .ok (some (b, s')) ∧ peel code endless fuel s' = .ok (bs', last) ∧
        bs = b :: bs' := by
  rw [peel] at h
  obtain ⟨taken, hcode, hrest⟩ := bind_eq_ok.mp h
  cases taken with
  | none =>
    obtain ⟨rfl, rfl⟩ := Prod.mk.inj (pure_eq_ok.mp hrest)
    exact Or.inl ⟨hcode, rfl, rfl⟩
  | some piece =>
    obtain ⟨b, s'⟩ := piece
    obtain ⟨⟨bs', last'⟩, hpeel, heq⟩ := bind_eq_ok.mp hrest
    obtain ⟨rfl, rfl⟩ := Prod.mk.inj (pure_eq_ok.mp heq)
    exact Or.inr ⟨b, s', bs', hcode, hpeel, rfl⟩

theorem Peels.unique {last' : S} {bs' : List B} (h : Peels step s bs last)
    (h' : Peels step s bs' last') : bs = bs' ∧ last = last' := by
  induction h generalizing bs' with
  | stop hnone =>
    cases h' with
    | stop _ => exact ⟨rfl, rfl⟩
    | next hsome _ => exact absurd (hnone.symm.trans hsome) (by simp)
  | next hsome _ ih =>
    cases h' with
    | stop hnone => exact absurd (hnone.symm.trans hsome) (by simp)
    | next hsome' hrest =>
      obtain ⟨rfl, rfl⟩ := Prod.mk.inj (Option.some.inj (hsome.symm.trans hsome'))
      obtain ⟨rfl, rfl⟩ := ih hrest
      exact ⟨rfl, rfl⟩

/-- Who agrees cannot stand still. -/
theorem Agrees.moves (h : Agrees code step s) (hstep : step s = some (b, s')) : s' ≠ s := by
  induction h generalizing b s' with
  | stop hnone => exact fun _ => absurd (hnone.symm.trans hstep) (by simp)
  | next hsome _ _ ih =>
    rintro rfl
    obtain ⟨rfl, rfl⟩ := Prod.mk.inj (Option.some.inj (hsome.symm.trans hstep))
    exact ih hsome rfl

/-- The loop peels the pieces that should come off exactly when the steps agree along them. A
piece fixes what is left of the state, and a step that takes none away leaves it as it is. -/
theorem peel_iff_agrees
    (hfixes : ∀ s b s' s'', code s = .ok (some (b, s')) → step s = some (b, s'') → s' = s'')
    (hshrinks : ∀ s b s', code s = .ok (some (b, s')) → s' = s ∨ size s' < size s)
    (hfuel : size s < fuel) :
    (∃ bs last, Peels step s bs last ∧ peel code endless fuel s = .ok (bs, last)) ↔
      Agrees code step s := by
  constructor
  · rintro ⟨bs, last, hpeels, hpeel⟩
    clear hfuel
    induction hpeels generalizing fuel with
    | stop hnone =>
      cases fuel with
      | zero => cases hpeel
      | succ fuel =>
        obtain ⟨hcode, -, -⟩ | ⟨_, _, _, -, -, hne⟩ := peel_eq_ok hpeel
        · exact .stop hnone hcode
        · cases hne
    | next hsome _ ih =>
      cases fuel with
      | zero => cases hpeel
      | succ fuel =>
        obtain ⟨-, hne, -⟩ | ⟨b, s', bs', hcode, hrest, heq⟩ := peel_eq_ok hpeel
        · cases hne
        · obtain ⟨rfl, rfl⟩ := List.cons.inj heq
          obtain rfl := hfixes _ _ _ _ hcode hsome
          exact .next hsome hcode (ih hrest)
  · intro h
    induction h generalizing fuel with
    | stop hnone hcode =>
      obtain ⟨fuel, rfl⟩ := Nat.exists_eq_succ_of_ne_zero (Nat.ne_of_gt (Nat.zero_lt_of_lt hfuel))
      exact ⟨[], _, .stop hnone, peel_stop hcode⟩
    | next hsome hcode hrest ih =>
      obtain ⟨fuel, rfl⟩ := Nat.exists_eq_succ_of_ne_zero (Nat.ne_of_gt (Nat.zero_lt_of_lt hfuel))
      have hmoves := (Agrees.next hsome hcode hrest).moves hsome
      have hsmaller := (hshrinks _ _ _ hcode).resolve_left hmoves
      obtain ⟨bs, last, hpeels, hpeel⟩ := @ih fuel (by omega)
      refine ⟨_ :: bs, last, .next hsome hpeels, ?_⟩
      rw [peel_next hcode, hpeel]
      rfl

/-- A loop whose steps make the state smaller ends. -/
theorem peel_ne_endless (hcode : ∀ s, code s ≠ .error endless)
    (hshrinks : ∀ s b s', code s = .ok (some (b, s')) → size s' < size s)
    (hfuel : size s < fuel) : peel code endless fuel s ≠ .error endless := by
  induction fuel generalizing s with
  | zero => exact absurd hfuel (Nat.not_lt_zero _)
  | succ fuel ih =>
    cases hs : code s with
    | error e =>
      rw [peel, hs]
      change Except.error e ≠ Except.error endless
      rintro ⟨⟩
      exact hcode s hs
    | ok taken =>
      cases taken with
      | none =>
        rw [peel_stop hs]
        exact fun heq => by cases heq
      | some piece =>
        obtain ⟨b, s'⟩ := piece
        have hsmaller := hshrinks _ _ _ hs
        have hrest := @ih s' (by omega)
        rw [peel_next hs]
        cases hpeel : peel code endless fuel s' with
        | ok rest => exact fun heq => by cases heq
        | error e =>
          rw [hpeel] at hrest
          exact hrest

end Peeling
