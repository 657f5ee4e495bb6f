import Mathlib.Tactic

/-! A sequence in which every occurrence of a pattern, as a walk from the left finds them, gives
way to a stand-in. Where the stand-in is fenced by elements that the pattern does not have, the
pattern is gone, and what was free of it is as it was. -/
namespace Replacement

variable {α : Type*} {pattern standIn s t u v : List α} {a : α}

/-- The second sequence is the first with the occurrences of the pattern replaced. -/
inductive Replaced (pattern standIn : List α) : List α → List α → Prop
  | nil : Replaced pattern standIn [] []
  | hit {t u : List α} : Replaced pattern standIn t u →
      Replaced pattern standIn (pattern ++ t) (standIn ++ u)
  | pass {a : α} {t u : List α} : ¬ pattern <+: a :: t → Replaced pattern standIn t u →
      Replaced pattern standIn (a :: t) (a :: u)

/-- A property of every sequence, along the walk that finds the occurrences. -/
theorem walk_induction {P : List α → Prop} (hne : pattern ≠ []) (nil : P [])
    (hit : ∀ t, P t → P (pattern ++ t))
    (pass : ∀ a t, ¬ pattern <+: a :: t → P t → P (a :: t)) (t : List α) : P t := by
  induction hlength : t.length using Nat.strong_induction_on generalizing t with
  | _ n ih =>
    subst hlength
    have hpos := List.length_pos_of_ne_nil hne
    by_cases hmatch : pattern <+: t
    · obtain ⟨rest, rfl⟩ := hmatch
      exact hit rest (ih rest.length (by simp; omega) rest rfl)
    · cases t with
      | nil => exact nil
      | cons a t => exact pass a t hmatch (ih t.length (by simp) t rfl)

/-- A sequence without an element, inside two that it parts, lies in one of them. -/
theorem occurs_of_fenced (ha : a ∉ pattern) (h : pattern <:+: s ++ a :: t) :
    pattern <:+: s ∨ pattern <:+: t := by
  obtain ⟨front, back, heq⟩ := h
  rw [List.append_assoc] at heq
  obtain ⟨gap, hs, hrest⟩ | ⟨gap, hfront, hrest⟩ := List.append_eq_append_iff.mp heq
  · obtain ⟨gap', hgap, hback⟩ | ⟨gap', hpattern, hback⟩ := List.append_eq_append_iff.mp hrest
    · exact Or.inl ⟨front, gap', by rw [hs, hgap, List.append_assoc]⟩
    · cases gap' with
      | nil =>
        rw [List.append_nil] at hpattern
        exact Or.inl ⟨front, [], by rw [hs, hpattern, List.append_nil]⟩
      | cons b gap' =>
        obtain rfl := (List.cons.inj hback).1
        exact absurd (by simp [hpattern]) ha
  · cases gap with
    | nil =>
      rw [List.nil_append] at hrest
      cases pattern with
      | nil => exact Or.inl ⟨[], s, rfl⟩
      | cons b pattern =>
        obtain rfl := (List.cons.inj hrest).1
        exact absurd List.mem_cons_self ha
    | cons b gap =>
      right
      have htail := (List.cons.inj hrest).2
      exact ⟨gap, back, by rw [List.append_assoc]; exact htail.symm⟩

/-- How a stand-in has to be made so that it cannot be part of an occurrence. -/
structure Fenced (pattern standIn : List α) : Prop where
  nonempty : pattern ≠ []
  fence : ∃ first inner last, standIn = first :: (inner ++ [last]) ∧ first ∉ pattern ∧
    last ∉ pattern ∧ ¬ pattern <:+: inner

theorem starts_of_replaced (hfirst : ∀ b rest, standIn = b :: rest → b ∉ s) (hne : standIn ≠ [])
    (h : Replaced pattern standIn t u) (hs : s <+: u) : s <+: t := by
  induction h generalizing s with
  | nil => exact hs
  | hit h ih =>
    cases s with
    | nil => exact List.nil_prefix
    | cons c s =>
      cases standIn with
      | nil => exact absurd rfl hne
      | cons b rest =>
        obtain rfl := (List.cons_prefix_cons.mp hs).1
        exact absurd List.mem_cons_self (hfirst c rest rfl)
  | pass hmiss h ih =>
    cases s with
    | nil => exact List.nil_prefix
    | cons c s =>
      obtain ⟨rfl, hrest⟩ := List.cons_prefix_cons.mp hs
      refine List.cons_prefix_cons.mpr ⟨rfl, ih (fun b rest heq hb => ?_) hrest⟩
      exact hfirst b rest heq (List.mem_cons_of_mem _ hb)

/-- The pattern is gone. -/
theorem Fenced.not_occurs (hfenced : Fenced pattern standIn) (h : Replaced pattern standIn t u) :
    ¬ pattern <:+: u := by
  obtain ⟨hne, first, inner, last, rfl, hfirst, hlast, hinner⟩ := hfenced
  induction h with
  | nil => exact fun h => hne (List.infix_nil.mp h)
  | hit h ih =>
    intro hoccurs
    obtain hnil | hrest := occurs_of_fenced (s := []) hfirst (by simpa using hoccurs)
    · exact hne (List.infix_nil.mp hnil)
    · obtain hin | hbehind := occurs_of_fenced hlast hrest
      · exact hinner hin
      · exact ih hbehind
  | pass hmiss h ih =>
    intro hoccurs
    obtain hhead | htail := List.infix_cons_iff.mp hoccurs
    · have hother : ∀ b rest, first :: (inner ++ [last]) = b :: rest → b ∉ pattern := by
        rintro b rest ⟨⟩
        exact hfirst
      exact hmiss (starts_of_replaced hother (by simp) (Replaced.pass hmiss h) hhead)
    · exact ih htail

/-- What is free of the pattern stays as it is. -/
theorem eq_of_free (h : Replaced pattern standIn t u) (hfree : ¬ pattern <:+: t) : u = t := by
  induction h with
  | nil => rfl
  | @hit t u h ih => exact absurd ⟨[], t, by simp⟩ hfree
  | pass hmiss h ih => rw [ih fun hoccurs => hfree (hoccurs.trans (List.suffix_cons _ _).isInfix)]

end Replacement
