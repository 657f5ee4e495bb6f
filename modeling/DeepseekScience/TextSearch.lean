import Mathlib
import DeepseekScience.Text

/-! Searching in texts: the byte position of an occurrence, replacement, and the lower-case copy of
a text with the positions that a search finds in it. The Unicode tables behind lower-casing are
parameters. -/
namespace DeepseekScience

/-- The weight of what stands in front of the first suffix with a property. -/
def firstAt (w : Char → ℕ) (p : Text → Bool) : Text → Option ℕ
  | [] => if p [] then some 0 else none
  | c :: t => if p (c :: t) then some 0 else (firstAt w p t).map (w c + ·)

/-- `str::find` with a text pattern: the byte position of the first occurrence. -/
def findText (pattern : Text) : Text → Option ℕ := firstAt Char.utf8Size pattern.isPrefixOf

/-- The text starts with the pattern, up to the case of ASCII letters. -/
def startsIgnoreAsciiCase (pattern t : Text) : Bool :=
  (toAsciiLowercase pattern).isPrefixOf (toAsciiLowercase t)

/-- The byte position of the first occurrence, up to the case of ASCII letters. -/
def findIgnoreAsciiCase (pattern : Text) : Text → Option ℕ :=
  firstAt Char.utf8Size (startsIgnoreAsciiCase pattern)

/-- `str::replace` for a pattern that is not empty, behind characters to be passed over. -/
def replaceFrom (pattern replacement : Text) : ℕ → Text → Text
  | _, [] => []
  | n + 1, _ :: t => replaceFrom pattern replacement n t
  | 0, c :: t =>
    if pattern.isPrefixOf (c :: t) then
      replacement ++ replaceFrom pattern replacement (pattern.length - 1) t
    else c :: replaceFrom pattern replacement 0 t

def replaceText (pattern replacement t : Text) : Text := replaceFrom pattern replacement 0 t

def isAscii (c : Char) : Bool := decide (c.toNat < 128)

/-- The tables of the Unicode character database that lower-casing reads. -/
structure CaseTables where
  /-- `char::to_lowercase`. -/
  lower : Char → Text
  cased : Char → Bool
  caseIgnorable : Char → Bool
  lower_ascii : ∀ c, isAscii c = true → lower c = [c.toLower]
  lower_tail : ∀ c, ∀ d ∈ (lower c).tail, isAscii d = false
  lower_sigma : lower 'Σ' = ['σ']

namespace CaseTables

variable (T : CaseTables)

def ignorableThenCased (t : Text) : Bool :=
  match t.dropWhile T.caseIgnorable with
  | c :: _ => T.cased c
  | [] => false

/-- A capital sigma between the reversed text before it and the text behind it. -/
def lowerSigma (before rest : Text) : Char :=
  if T.ignorableThenCased before && !T.ignorableThenCased rest then 'ς' else 'σ'

/-- The lower case of a text behind the reversed text before it. -/
def lowercaseFrom (before : Text) : Text → Text
  | [] => []
  | c :: t =>
    (if c = 'Σ' then [T.lowerSigma before t] else T.lower c) ++ lowercaseFrom (c :: before) t

/-- `str::to_lowercase`. -/
def toLowercase (t : Text) : Text := T.lowercaseFrom [] t

/-- The lower case of the text starts with the pattern. -/
def readsAs (pattern t : Text) : Bool :=
  (toAsciiLowercase pattern).isPrefixOf (t.flatMap T.lower)

/-- Where the lower-case copy of a text reads as the pattern first: the bytes that the copy has
there. -/
def placeInLower (pattern : Text) : Text → Option ℕ :=
  firstAt (fun c => byteLen (T.lower c)) (T.readsAs pattern)

end CaseTables

theorem firstAt_eq_none {w : Char → ℕ} {p : Text → Bool} {t : Text} :
    firstAt w p t = none ↔ ∀ u, u <:+ t → p u = false := by
  induction t with
  | nil =>
    unfold firstAt
    split_ifs with h
    · exact iff_of_false (by simp) fun hall => by simp [hall [] List.suffix_rfl] at h
    · refine iff_of_true rfl fun u hu => ?_
      rw [List.suffix_nil.mp hu]
      exact Bool.eq_false_iff.mpr h
  | cons c t ih =>
    unfold firstAt
    split_ifs with h
    · exact iff_of_false (by simp) fun hall => by simp [hall _ List.suffix_rfl] at h
    · rw [Option.map_eq_none_iff, ih]
      constructor
      · intro hall u hu
        obtain rfl | hu := List.suffix_cons_iff.mp hu
        · exact Bool.eq_false_iff.mpr h
        · exact hall u hu
      · exact fun hall u hu => hall u (hu.trans (List.suffix_cons c t))

/-- The first occurrence splits the text. -/
theorem firstAt_eq_some {w : Char → ℕ} {p : Text → Bool} {t : Text} {n : ℕ}
    (h : firstAt w p t = some n) :
    ∃ before after, t = before ++ after ∧ p after = true ∧ n = (before.map w).sum := by
  induction t generalizing n with
  | nil =>
    unfold firstAt at h
    split_ifs at h with hp
    exact ⟨[], [], rfl, hp, (Option.some.inj h).symm⟩
  | cons c t ih =>
    unfold firstAt at h
    split_ifs at h with hp
    · exact ⟨[], c :: t, rfl, hp, (Option.some.inj h).symm⟩
    · obtain ⟨m, hm, rfl⟩ := Option.map_eq_some_iff.mp h
      obtain ⟨before, after, rfl, hafter, rfl⟩ := ih hm
      exact ⟨c :: before, after, rfl, hafter, by rw [List.map_cons, List.sum_cons]⟩

theorem firstAt_congr {w w' : Char → ℕ} {p p' : Text → Bool} {t : Text}
    (hw : ∀ c ∈ t, w c = w' c) (hp : ∀ u, u <:+ t → p u = p' u) :
    firstAt w p t = firstAt w' p' t := by
  induction t with
  | nil => rw [firstAt, firstAt, hp [] List.suffix_rfl]
  | cons c t ih =>
    rw [firstAt, firstAt, hp _ List.suffix_rfl, hw c List.mem_cons_self,
      ih (fun d hd => hw d (List.mem_cons_of_mem c hd))
        fun u hu => hp u (hu.trans (List.suffix_cons c t))]

/-- A text that can be cut is two texts. -/
theorem exists_append_of_isCharBoundary {n : ℕ} {t : Text} (h : isCharBoundary n t = true) :
    ∃ before after, t = before ++ after ∧ n = byteLen before := by
  induction t generalizing n with
  | nil =>
    cases n with
    | zero => exact ⟨[], [], rfl, rfl⟩
    | succ n => cases h
  | cons c t ih =>
    cases n with
    | zero => exact ⟨[], c :: t, rfl, rfl⟩
    | succ n =>
      rw [isCharBoundary, Bool.and_eq_true, decide_eq_true_eq] at h
      obtain ⟨before, after, rfl, hlen⟩ := ih h.2
      refine ⟨c :: before, after, rfl, ?_⟩
      rw [byteLen_cons]
      omega

theorem byteLen_takeBytes {n : ℕ} {t : Text} (h : isCharBoundary n t = true) :
    byteLen (takeBytes n t) = n := by
  obtain ⟨before, after, rfl, rfl⟩ := exists_append_of_isCharBoundary h
  rw [takeBytes_append]

/-- Where an occurrence is found, the text can be cut. -/
theorem isCharBoundary_of_firstAt {p : Text → Bool} {t : Text} {n : ℕ}
    (h : firstAt Char.utf8Size p t = some n) : isCharBoundary n t = true := by
  obtain ⟨before, after, rfl, -, rfl⟩ := firstAt_eq_some h
  exact isCharBoundary_append before after

theorem firstAt_of_true {w : Char → ℕ} {p : Text → Bool} {t : Text} (h : p t = true) :
    firstAt w p t = some 0 := by
  cases t <;> simp only [firstAt, h, if_true]

/-- A piece in which nothing begins is passed over. -/
theorem firstAt_append {w : Char → ℕ} {p : Text → Bool} {piece t : Text}
    (h : ∀ u, u <:+ piece → u ≠ [] → p (u ++ t) = false) :
    firstAt w p (piece ++ t) = (firstAt w p t).map ((piece.map w).sum + ·) := by
  induction piece with
  | nil => simp
  | cons c piece ih =>
    have hfirst := h (c :: piece) List.suffix_rfl (List.cons_ne_nil c piece)
    have hrest := ih fun u hu hne => h u (hu.trans (List.suffix_cons c piece)) hne
    rw [List.cons_append] at hfirst ⊢
    rw [firstAt, hfirst, hrest, if_neg Bool.false_ne_true, Option.map_map]
    congr 1
    funext n
    rw [Function.comp_apply, List.map_cons, List.sum_cons, Nat.add_assoc]

/-- Prefixes of two texts that begin alike. -/
theorem isPrefixOf_append_congr {piece t u : Text}
    (h : ∀ pattern : Text, pattern.all isAscii = true → pattern.isPrefixOf t = pattern.isPrefixOf u)
    (pattern : Text) (hpattern : pattern.all isAscii = true) :
    pattern.isPrefixOf (piece ++ t) = pattern.isPrefixOf (piece ++ u) := by
  induction piece generalizing pattern with
  | nil => exact h pattern hpattern
  | cons c piece ih =>
    cases pattern with
    | nil => rfl
    | cons d pattern =>
      rw [List.all_cons, Bool.and_eq_true] at hpattern
      rw [List.cons_append, List.cons_append, List.isPrefixOf, List.isPrefixOf,
        ih pattern hpattern.2]

/-- No ASCII text begins with another character. -/
theorem isPrefixOf_of_not_ascii {pattern t : Text} {c : Char} (hpattern : pattern.all isAscii = true)
    (hc : isAscii c = false) : pattern.isPrefixOf (c :: t) = pattern.isEmpty := by
  cases pattern with
  | nil => rfl
  | cons d pattern =>
    rw [List.all_cons, Bool.and_eq_true] at hpattern
    have hne : d ≠ c := by
      rintro rfl
      exact absurd hpattern.1 (by rw [hc]; exact Bool.false_ne_true)
    rw [List.isPrefixOf, beq_eq_false_iff_ne.mpr hne, Bool.false_and, List.isEmpty_cons]

section
variable {T : CaseTables} {pattern t before : Text} {c : Char}

/-- The image of a character in the lower-case copy. -/
def CaseTables.image (T : CaseTables) (before t : Text) (c : Char) : Text :=
  if c = 'Σ' then [T.lowerSigma before t] else T.lower c

theorem isAscii_lowerSigma : isAscii (T.lowerSigma before t) = false := by
  unfold CaseTables.lowerSigma
  split_ifs <;> decide

theorem byteLen_image : byteLen (T.image before t c) = byteLen (T.lower c) := by
  unfold CaseTables.image
  split_ifs with h
  · rw [h, T.lower_sigma, CaseTables.lowerSigma]
    split_ifs <;> decide
  · rfl

theorem image_tail : ∀ d ∈ (T.image before t c).tail, isAscii d = false := by
  unfold CaseTables.image
  split_ifs
  · exact fun d hd => absurd hd List.not_mem_nil
  · exact T.lower_tail c

/-- To an ASCII pattern the small sigmas are alike. -/
theorem isPrefixOf_lowercaseFrom (pattern : Text) (hpattern : pattern.all isAscii = true) :
    pattern.isPrefixOf (T.lowercaseFrom before t) = pattern.isPrefixOf (t.flatMap T.lower) := by
  induction t generalizing before pattern with
  | nil => rfl
  | cons c t ih =>
    rw [CaseTables.lowercaseFrom, List.flatMap_cons]
    split_ifs with h
    · have hsigma : isAscii 'σ' = false := by decide
      rw [h, T.lower_sigma, List.cons_append, List.cons_append,
        isPrefixOf_of_not_ascii hpattern isAscii_lowerSigma,
        isPrefixOf_of_not_ascii hpattern hsigma]
    · exact isPrefixOf_append_congr ih pattern hpattern

/-- A search in the lower-case copy finds the place at which it reads as the pattern. -/
theorem findText_lowercaseFrom (hpattern : (toAsciiLowercase pattern).all isAscii = true) :
    findText (toAsciiLowercase pattern) (T.lowercaseFrom before t) = T.placeInLower pattern t := by
  unfold findText CaseTables.placeInLower
  induction t generalizing before with
  | nil => rfl
  | cons c t ih =>
    have hreads : (toAsciiLowercase pattern).isPrefixOf (T.lowercaseFrom before (c :: t)) =
        T.readsAs pattern (c :: t) := isPrefixOf_lowercaseFrom _ hpattern
    have hcopy : T.lowercaseFrom before (c :: t) =
        T.image before t c ++ T.lowercaseFrom (c :: before) t := rfl
    rw [firstAt]
    split_ifs with h
    · exact firstAt_of_true (hreads.trans h)
    · rw [hcopy] at hreads ⊢
      rw [firstAt_append, ih]
      · exact congrArg (fun n => Option.map (n + ·) _) byteLen_image
      · intro u hu hne
        have htail := @image_tail T t before c
        cases himage : T.image before t c with
        | nil =>
          rw [himage] at hu
          exact absurd (List.suffix_nil.mp hu) hne
        | cons a tail =>
          rw [himage] at hu htail
          obtain rfl | hu := List.suffix_cons_iff.mp hu
          · rw [← himage, hreads]
            exact Bool.eq_false_iff.mpr h
          · obtain ⟨d, u, rfl⟩ := List.exists_cons_of_ne_nil hne
            rw [List.cons_append, isPrefixOf_of_not_ascii hpattern
              (htail d (hu.subset List.mem_cons_self))]
            apply Bool.eq_false_iff.mpr
            intro hempty
            apply h
            rw [CaseTables.readsAs, List.isEmpty_iff.mp hempty]
            rfl

theorem isAscii_toLower (h : isAscii c = true) : isAscii c.toLower = true := by
  have hall : ∀ n < 128, isAscii (Char.ofNat n).toLower = true := by decide +kernel
  have hc := hall c.toNat (of_decide_eq_true h)
  rwa [Char.ofNat_toNat] at hc

theorem toAsciiLowercase_ascii (h : pattern.all isAscii = true) :
    (toAsciiLowercase pattern).all isAscii = true := by
  rw [List.all_eq_true] at h ⊢
  intro d hd
  obtain ⟨c, hc, rfl⟩ := List.mem_map.mp hd
  exact isAscii_toLower (h c hc)

theorem lowercaseFrom_ascii (h : t.all isAscii = true) :
    T.lowercaseFrom before t = toAsciiLowercase t := by
  induction t generalizing before with
  | nil => rfl
  | cons c t ih =>
    rw [List.all_cons, Bool.and_eq_true] at h
    have hsigma : c ≠ 'Σ' := by
      rintro rfl
      exact absurd h.1 (by decide)
    rw [CaseTables.lowercaseFrom, if_neg hsigma, T.lower_ascii c h.1, ih h.2]
    rfl

/-- A search for a marker in lower case. -/
theorem findText_toLowercase (h : pattern.all isAscii = true) :
    findText (T.toLowercase pattern) (T.toLowercase t) = T.placeInLower pattern t := by
  rw [CaseTables.toLowercase, lowercaseFrom_ascii h]
  exact findText_lowercaseFrom (toAsciiLowercase_ascii h)

theorem utf8Size_toLower (h : isAscii c = true) : c.toLower.utf8Size = c.utf8Size := by
  have hall : ∀ n < 128, (Char.ofNat n).toLower.utf8Size = (Char.ofNat n).utf8Size := by
    decide +kernel
  have hc := hall c.toNat (of_decide_eq_true h)
  rwa [Char.ofNat_toNat] at hc

theorem toLower_of_not_ascii (h : isAscii c = false) : c.toLower = c := by
  apply Char.toLower_eq_of_not_isUpper
  intro hupper
  have hrange : c.toNat ≤ 90 := by
    simp only [Char.isUpper, decide_eq_true_eq] at hupper
    exact hupper.2
  exact absurd (of_decide_eq_false h) (by omega)

/-- An occurrence is as long as the pattern. -/
theorem startsIgnoreAsciiCase_spec (hpattern : pattern.all isAscii = true)
    (h : startsIgnoreAsciiCase pattern t = true) :
    ∃ found rest, t = found ++ rest ∧ byteLen found = byteLen pattern := by
  induction pattern generalizing t with
  | nil => exact ⟨[], t, rfl, rfl⟩
  | cons d pattern ih =>
    cases t with
    | nil => cases h
    | cons c t =>
      rw [List.all_cons, Bool.and_eq_true] at hpattern
      rw [startsIgnoreAsciiCase, toAsciiLowercase, toAsciiLowercase, List.map_cons, List.map_cons,
        List.isPrefixOf, Bool.and_eq_true, beq_iff_eq] at h
      obtain ⟨found, rest, rfl, hlen⟩ := ih hpattern.2 h.2
      have hsize : c.utf8Size = d.utf8Size := by
        by_cases hc : isAscii c = true
        · rw [← utf8Size_toLower hc, ← h.1, utf8Size_toLower hpattern.1]
        · have hout := Bool.eq_false_iff.mpr hc
          rw [toLower_of_not_ascii hout] at h
          rw [← h.1, isAscii_toLower hpattern.1] at hout
          cases hout
      exact ⟨c :: found, rest, rfl, by rw [byteLen_cons, byteLen_cons, hlen, hsize]⟩

/-- A character whose lower case is as long as itself, and is not ASCII unless the character is. -/
def CaseTables.Keeps (T : CaseTables) (c : Char) : Prop :=
  isAscii c = true ∨
    (byteLen (T.lower c) = c.utf8Size ∧ ∀ d ∈ T.lower c, isAscii d = false)

theorem CaseTables.Keeps.byteLen_lower (h : T.Keeps c) : byteLen (T.lower c) = c.utf8Size := by
  obtain hascii | ⟨hlen, -⟩ := h
  · rw [T.lower_ascii c hascii, byteLen_cons, byteLen_nil, Nat.add_zero, utf8Size_toLower hascii]
  · exact hlen

theorem readsAs_of_keeps (ht : ∀ c ∈ t, T.Keeps c) (pattern : Text)
    (hpattern : pattern.all isAscii = true) :
    pattern.isPrefixOf (t.flatMap T.lower) = pattern.isPrefixOf (toAsciiLowercase t) := by
  induction t generalizing pattern with
  | nil => rfl
  | cons c t ih =>
    obtain ⟨hc, ht⟩ := List.forall_mem_cons.mp ht
    rw [List.flatMap_cons, toAsciiLowercase, List.map_cons]
    by_cases hascii : isAscii c = true
    · rw [T.lower_ascii c hascii]
      exact @isPrefixOf_append_congr [c.toLower] _ _ (ih ht) pattern hpattern
    · have hout := Bool.eq_false_iff.mpr hascii
      obtain ⟨hlen, hother⟩ := hc.resolve_left hascii
      cases hlower : T.lower c with
      | nil =>
        rw [hlower] at hlen
        exact absurd hlen.symm (utf8Size_pos c).ne'
      | cons d ds =>
        rw [hlower] at hother
        rw [List.cons_append, isPrefixOf_of_not_ascii hpattern (hother d List.mem_cons_self),
          toLower_of_not_ascii hout, isPrefixOf_of_not_ascii hpattern hout]

/-- In a text of such characters the lower-case copy shows the places of the text. -/
theorem placeInLower_of_keeps (hpattern : pattern.all isAscii = true) (ht : ∀ c ∈ t, T.Keeps c) :
    T.placeInLower pattern t = findIgnoreAsciiCase pattern t := by
  apply firstAt_congr
  · exact fun c hc => (ht c hc).byteLen_lower
  · intro u hu
    exact readsAs_of_keeps (fun c hc => ht c (hu.subset hc)) _ (toAsciiLowercase_ascii hpattern)

end

end DeepseekScience
