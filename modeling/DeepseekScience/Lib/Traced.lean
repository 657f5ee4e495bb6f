import Mathlib.Tactic

/-! Computations that may fail and leave a trace of events. What is said of a computation is said
of every event and of the result. -/
namespace Traces

/-- The events so far, and the end. -/
structure Traced (E ε α : Type) where
  events : List E
  result : Except ε α

namespace Traced

variable {E ε α β : Type}

def ret (a : α) : Traced E ε α := ⟨[], .ok a⟩

def throw (e : ε) : Traced E ε α := ⟨[], .error e⟩

def emit (event : E) : Traced E ε Unit := ⟨[event], .ok ()⟩

/-- A result that involves no event. -/
def lift (r : Except ε α) : Traced E ε α := ⟨[], r⟩

def andThen (x : Traced E ε α) (f : α → Traced E ε β) : Traced E ε β :=
  match x.result with
  | .ok a => ⟨x.events ++ (f a).events, (f a).result⟩
  | .error e => ⟨x.events, .error e⟩

instance : Monad (Traced E ε) where
  pure := ret
  bind := andThen

/-- All events are of a kind, and so is the result if there is one. -/
def Emits (P : E → Prop) (Q : α → Prop) (x : Traced E ε α) : Prop :=
  (∀ e ∈ x.events, P e) ∧ ∀ a, x.result = .ok a → Q a

variable {P P' : E → Prop} {Q Q' : α → Prop} {R : β → Prop} {x : Traced E ε α}
  {f : α → Traced E ε β}

theorem emits_pure {a : α} (h : Q a) : Emits P Q (pure a : Traced E ε α) := by
  constructor
  · exact fun e he => absurd he List.not_mem_nil
  · intro b hb
    obtain rfl := Except.ok.inj hb
    exact h

theorem emits_throw (e : ε) : Emits P Q (throw e : Traced E ε α) :=
  ⟨fun _ he => absurd he List.not_mem_nil, fun _ hb => by cases hb⟩

theorem emits_emit {e : E} {Q : Unit → Prop} (h : P e) (hQ : Q ()) :
    Emits P Q (emit e : Traced E ε Unit) :=
  ⟨fun _ he => List.mem_singleton.mp he ▸ h, fun _ _ => hQ⟩

theorem emits_lift {r : Except ε α} (h : ∀ a, r = .ok a → Q a) :
    Emits P Q (lift r : Traced E ε α) :=
  ⟨fun _ he => absurd he List.not_mem_nil, h⟩

theorem emits_bind (hx : Emits P Q x) (hf : ∀ a, Q a → Emits P R (f a)) :
    Emits P R (x >>= f) := by
  show Emits P R (andThen x f)
  unfold andThen
  cases hr : x.result with
  | error e => exact ⟨hx.1, fun _ hb => by cases hb⟩
  | ok a =>
    obtain ⟨hevents, hresult⟩ := hf a (hx.2 a hr)
    refine ⟨fun e he => ?_, hresult⟩
    rcases List.mem_append.mp he with he | he
    · exact hx.1 e he
    · exact hevents e he

theorem emits_mono (hx : Emits P Q x) (hP : ∀ e, P e → P' e) (hQ : ∀ a, Q a → Q' a) :
    Emits P' Q' x :=
  ⟨fun e he => hP e (hx.1 e he), fun a ha => hQ a (hx.2 a ha)⟩

/-! The number of events of a kind. -/

theorem countP_bind_le {p : E → Bool} (m n : ℕ) (hx : x.events.countP p ≤ m)
    (hf : ∀ a, (f a).events.countP p ≤ n) : (x >>= f).events.countP p ≤ m + n := by
  show (andThen x f).events.countP p ≤ m + n
  unfold andThen
  cases x.result with
  | error e => exact hx.trans (Nat.le_add_right m n)
  | ok a =>
    rw [List.countP_append]
    exact Nat.add_le_add hx (hf a)

end Traced
end Traces
