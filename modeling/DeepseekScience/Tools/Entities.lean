import DeepseekScience.Tools.HtmlText

/-! Entities (`builtin/web.rs`, `decode_entities`): the ampersands are decoded first, and what they
spell together with the text behind them is decoded again. -/
namespace DeepseekScience.Tools

/-- An entity: an ampersand, a name and a semicolon that stand for a character. -/
structure Entity where
  name : Text
  character : Char
  plain : (name.all fun c => c != '&' && c != ';') = true

def Entity.text (e : Entity) : Text := '&' :: (e.name ++ [';'])

def Entity.decode (t : Text) (e : Entity) : Text := replaceText e.text [e.character] t

def ampersand : Entity := ⟨"amp".toList, '&', by decide⟩

/-- The entities that are decoded behind the ampersand, in their order. -/
def laterEntities : List Entity :=
  [⟨"lt".toList, '<', by decide⟩, ⟨"gt".toList, '>', by decide⟩, ⟨"quot".toList, '"', by decide⟩,
    ⟨"#39".toList, '\'', by decide⟩, ⟨"#x27".toList, '\'', by decide⟩,
    ⟨"nbsp".toList, ' ', by decide⟩, ⟨"mdash".toList, '—', by decide⟩,
    ⟨"ndash".toList, '–', by decide⟩]

theorem decodeEntities_eq (s : Text) :
    decodeEntities s = laterEntities.foldl Entity.decode (ampersand.decode s) := rfl

/-- How a character is written in escaped text. -/
def spellings (c : Char) : List Text :=
  if c = '&' then ["&amp;".toList]
  else if c = '<' then ["&lt;".toList]
  else if c = '>' then ["&gt;".toList]
  else if c = '"' then ["&quot;".toList]
  else if c = '\'' then ["&#39;".toList, "&#x27;".toList]
  else [[c]]

/-- The second text is the first one with every special character spelled by an entity. -/
inductive Escaped : Text → Text → Prop
  | nil : Escaped [] []
  | cons {c : Char} {w t s : Text} : w ∈ spellings c → Escaped t s → Escaped (c :: t) (w ++ s)

/-- The second text is the first one with some characters spelled by entities of a table. -/
inductive Spelled (table : List Entity) : Text → Text → Prop
  | nil : Spelled table [] []
  | plain {t s : Text} (c : Char) : Spelled table t s → Spelled table (c :: t) (c :: s)
  | entity {t s : Text} {e : Entity} : e ∈ table → Spelled table t s →
      Spelled table (e.character :: t) (e.text ++ s)

/-- No entity that is decoded behind the ampersand stands in the text itself. -/
def Clean (t : Text) : Prop := ∀ e ∈ laterEntities, ¬e.text <:+: t

/-! Replacement. -/

section
variable {pattern replacement s t u : Text} {c : Char}

theorem replaceFrom_append (u s : Text) :
    replaceFrom pattern replacement u.length (u ++ s) = replaceFrom pattern replacement 0 s := by
  induction u with
  | nil => rfl
  | cons c u ih =>
    rw [List.length_cons, List.cons_append, replaceFrom]
    exact ih

theorem replaceText_append (hne : pattern ≠ []) (s : Text) :
    replaceText pattern replacement (pattern ++ s) =
      replacement ++ replaceText pattern replacement s := by
  unfold replaceText
  cases pattern with
  | nil => exact absurd rfl hne
  | cons c pattern =>
    have hmatch : (c :: pattern).isPrefixOf (c :: pattern ++ s) = true :=
      List.isPrefixOf_iff_prefix.mpr (List.prefix_append _ _)
    rw [List.cons_append] at hmatch ⊢
    rw [replaceFrom, if_pos hmatch]
    congr 1
    exact replaceFrom_append pattern s

theorem replaceText_cons (h : ¬pattern <+: c :: s) :
    replaceText pattern replacement (c :: s) = c :: replaceText pattern replacement s := by
  unfold replaceText
  rw [replaceFrom, if_neg]
  rwa [List.isPrefixOf_iff_prefix]

/-- A text whose characters begin no match is passed over. -/
theorem replaceText_pass (h : ∀ d ∈ u, pattern.head? ≠ some d) (hne : pattern ≠ []) (s : Text) :
    replaceText pattern replacement (u ++ s) = u ++ replaceText pattern replacement s := by
  induction u with
  | nil => rfl
  | cons d u ih =>
    rw [List.cons_append, replaceText_cons, ih fun e he => h e (List.mem_cons_of_mem _ he)]
    · rfl
    · intro hmatch
      obtain ⟨first, rest, rfl⟩ := List.exists_cons_of_ne_nil hne
      obtain ⟨rfl, -⟩ := List.cons_prefix_cons.mp hmatch
      exact h first (List.mem_cons_self ..) rfl

/-- Replacement by one character leaves the text as it is or makes it shorter. -/
theorem replaceText_shorter (hlong : 2 ≤ pattern.length) (t : Text) :
    (¬pattern <:+: t ∧ replaceText pattern [c] t = t) ∨
      (pattern <:+: t ∧ (replaceText pattern [c] t).length < t.length) := by
  have hne : pattern ≠ [] := by
    rintro rfl
    simp at hlong
  induction hlength : t.length using Nat.strong_induction_on generalizing t with
  | _ n ih =>
    cases t with
    | nil =>
      left
      exact ⟨fun h => hne (List.infix_nil.mp h), rfl⟩
    | cons d t =>
      rw [List.length_cons] at hlength
      by_cases hmatch : pattern <+: d :: t
      · right
        use hmatch.isInfix
        obtain ⟨rest, hrest⟩ := hmatch
        have hsum := congrArg List.length hrest
        rw [List.length_append, List.length_cons] at hsum
        have hle : (replaceText pattern [c] rest).length ≤ rest.length := by
          rcases ih rest.length (by omega) rest rfl with ⟨-, h⟩ | ⟨-, h⟩
          · rw [h]
          · exact h.le
        rw [← hrest, replaceText_append hne, List.length_append, List.length_singleton]
        omega
      · rw [replaceText_cons hmatch]
        rcases ih t.length (by omega) t rfl with ⟨hnone, h⟩ | ⟨hwithin, h⟩
        · left
          constructor
          · rw [List.infix_cons_iff, not_or]
            exact ⟨hmatch, hnone⟩
          · rw [h]
        · right
          use List.infix_cons hwithin
          rw [List.length_cons]
          omega

end

/-! One round of decoding. -/

section
variable {table : List Entity} {e e' : Entity} {s t u : Text} {c : Char}

theorem Entity.name_notMem : '&' ∉ e.name ∧ ';' ∉ e.name := by
  have hplain := List.all_eq_true.mp e.plain
  constructor
  · intro h
    simpa using hplain _ h
  · intro h
    simpa using hplain _ h

theorem Entity.text_ne_nil : e.text ≠ [] := List.cons_ne_nil _ _

/-- An entity that begins another one is that one. -/
theorem Entity.text_of_prefix (h : e.text <+: e'.text ++ s) : e.text = e'.text := by
  unfold Entity.text at h ⊢
  rw [List.cons_append, List.cons_prefix_cons, List.append_assoc] at h
  obtain ⟨rest, hrest⟩ := h.2
  have hfirst := congrArg (List.takeWhile (· != ';')) hrest
  rw [List.append_assoc, List.singleton_append, List.singleton_append,
    takeWhile_ne_append Entity.name_notMem.2, takeWhile_ne_append Entity.name_notMem.2] at hfirst
  rw [hfirst]

theorem Entity.decode_append (s : Text) : e.decode (e.text ++ s) = e.character :: e.decode s :=
  replaceText_append e.text_ne_nil s

theorem Entity.decode_cons (h : ¬e.text <+: c :: s) : e.decode (c :: s) = c :: e.decode s :=
  replaceText_cons h

theorem Entity.decode_ne (hne : c ≠ '&') : e.decode (c :: s) = c :: e.decode s := by
  apply replaceText_cons
  intro h
  exact hne (List.cons_prefix_cons.mp h).1.symm

/-- Another entity is passed over. -/
theorem Entity.decode_other (h : e.text ≠ e'.text) (s : Text) :
    e.decode (e'.text ++ s) = e'.text ++ e.decode s := by
  have hnone : ¬e.text <+: e'.text ++ s := fun hmatch => h (e.text_of_prefix hmatch)
  have hrest : ∀ d ∈ e'.name ++ [';'], e.text.head? ≠ some d := by
    intro d hd heq
    obtain rfl : '&' = d := Option.some.inj heq
    rcases List.mem_append.mp hd with hd | hd
    · exact Entity.name_notMem.1 hd
    · exact absurd (List.mem_singleton.mp hd) (by decide)
  have hpass := @replaceText_pass e.text [e.character] _ hrest e.text_ne_nil s
  have hfirst : e.decode ('&' :: (e'.name ++ [';'] ++ s)) =
      '&' :: e.decode (e'.name ++ [';'] ++ s) := replaceText_cons hnone
  unfold Entity.decode at hfirst ⊢
  rw [hpass] at hfirst
  exact hfirst

/-- Plain characters at the front of the spelled text are those of the text. -/
theorem Spelled.of_prefix (h : Spelled table t s) (hu : '&' ∉ u) (hmatch : u <+: s) :
    ∃ t' s', t = u ++ t' ∧ s = u ++ s' ∧ Spelled table t' s' := by
  induction u generalizing t s with
  | nil => exact ⟨t, s, rfl, rfl, h⟩
  | cons d u ih =>
    rw [List.mem_cons, not_or] at hu
    cases h with
    | nil => exact absurd (List.prefix_nil.mp hmatch) (List.cons_ne_nil _ _)
    | plain c h =>
      obtain ⟨rfl, hbehind⟩ := List.cons_prefix_cons.mp hmatch
      obtain ⟨t', s', rfl, rfl, h'⟩ := ih h hu.2 hbehind
      exact ⟨t', s', rfl, rfl, h'⟩
    | entity he h =>
      obtain ⟨rfl, -⟩ := List.cons_prefix_cons.mp hmatch
      exact absurd rfl hu.1

theorem Spelled.of_text_front (h : Spelled table t s)
    (hu : ∀ e ∈ table, e.character ∉ u) (hmatch : u <+: t) : u <+: s := by
  induction u generalizing t s with
  | nil => exact List.nil_prefix
  | cons d u ih =>
    have hrest : ∀ e ∈ table, e.character ∉ u := fun e he hmem =>
      hu e he (List.mem_cons_of_mem _ hmem)
    cases h with
    | nil => exact absurd (List.prefix_nil.mp hmatch) (List.cons_ne_nil _ _)
    | plain c h =>
      obtain ⟨rfl, hbehind⟩ := List.cons_prefix_cons.mp hmatch
      exact List.cons_prefix_cons.mpr ⟨rfl, ih h hrest hbehind⟩
    | @entity _ _ e he h =>
      obtain ⟨rfl, -⟩ := List.cons_prefix_cons.mp hmatch
      exact absurd (List.mem_cons_self ..) (hu e he)

/-- The first entity of the table is decoded in the text as in its spelling. -/
theorem Spelled.decode (h : Spelled (e :: table) t s)
    (hcharacter : ∀ e' ∈ e :: table, e'.character ∉ e.text)
    (hdistinct : ∀ e' ∈ table, e.text ≠ e'.text) : Spelled table (e.decode t) (e.decode s) := by
  induction hlength : s.length using Nat.strong_induction_on generalizing t s with
  | _ n ih =>
    subst hlength
    cases h with
    | nil => exact Spelled.nil
    | @plain t s c h =>
      have hshort : s.length < (c :: s).length := Nat.lt_succ_self _
      by_cases hmatch : e.text <+: c :: s
      · obtain ⟨rfl, hname⟩ := List.cons_prefix_cons.mp hmatch
        have hplain : '&' ∉ e.name ++ [';'] := by
          rw [List.mem_append, not_or]
          exact ⟨Entity.name_notMem.1, by decide⟩
        obtain ⟨t', s', rfl, rfl, h'⟩ := h.of_prefix hplain hname
        have hboth : ∀ v, '&' :: (e.name ++ [';'] ++ v) = e.text ++ v := fun v => rfl
        rw [hboth, hboth, Entity.decode_append, Entity.decode_append]
        apply Spelled.plain
        apply ih s'.length _ h' rfl
        simp only [List.length_cons, List.length_append]
        omega
      · have hnone : ¬e.text <+: c :: t := fun htext =>
          hmatch ((Spelled.plain c h).of_text_front hcharacter htext)
        rw [Entity.decode_cons hmatch, Entity.decode_cons hnone]
        exact Spelled.plain c (ih _ hshort h rfl)
    | @entity t s e' he' h =>
      have hne : e'.character ≠ '&' := by
        intro heq
        apply hcharacter e' he'
        rw [heq]
        exact List.mem_cons_self ..
      have hshort : s.length < (e'.text ++ s).length := by
        rw [List.length_append]
        have := List.length_pos_of_ne_nil e'.text_ne_nil
        omega
      rw [Entity.decode_ne hne]
      rcases List.mem_cons.mp he' with rfl | hmem
      · rw [Entity.decode_append]
        exact Spelled.plain _ (ih _ hshort h rfl)
      · rw [Entity.decode_other (hdistinct e' hmem)]
        exact Spelled.entity hmem (ih _ hshort h rfl)

theorem Spelled.eq (h : Spelled [] t s) : t = s := by
  induction h with
  | nil => rfl
  | plain c _ ih => rw [ih]
  | entity he => exact absurd he List.not_mem_nil

/-- The entities of a table have different texts, and no text has a character of the table. -/
inductive Separate : List Entity → Prop
  | nil : Separate []
  | cons {e : Entity} {table : List Entity} : (∀ e' ∈ e :: table, e'.character ∉ e.text) →
      (∀ e' ∈ table, e.text ≠ e'.text) → Separate table → Separate (e :: table)

/-- Decoding a spelling decodes the text. -/
theorem Spelled.foldl (hseparate : Separate table) (h : Spelled table t s) :
    table.foldl Entity.decode s = table.foldl Entity.decode t := by
  induction hseparate generalizing t s with
  | nil => exact h.eq.symm
  | cons hcharacter hdistinct _ ih => exact ih (h.decode hcharacter hdistinct)

theorem Entity.two_le_length : 2 ≤ e.text.length := by
  simp [Entity.text]

/-- Decoding leaves a text without entities as it is, and makes any other one shorter. -/
theorem foldl_decode (table : List Entity) (t : Text) :
    ((∀ e ∈ table, ¬e.text <:+: t) ∧ table.foldl Entity.decode t = t) ∨
      ((∃ e ∈ table, e.text <:+: t) ∧ (table.foldl Entity.decode t).length < t.length) := by
  induction table generalizing t with
  | nil =>
    left
    exact ⟨fun e he => absurd he List.not_mem_nil, rfl⟩
  | cons e table ih =>
    have hshorter := @replaceText_shorter e.text e.character e.two_le_length t
    rw [List.foldl_cons]
    rcases hshorter with ⟨hnone, hsame⟩ | ⟨hwithin, hless⟩
    · rw [show e.decode t = t from hsame]
      rcases ih t with ⟨hall, heq⟩ | ⟨⟨e', he', hwithin⟩, hless⟩
      · left
        constructor
        · intro e' he'
          rcases List.mem_cons.mp he' with rfl | he'
          · exact hnone
          · exact hall e' he'
        · exact heq
      · right
        exact ⟨⟨e', List.mem_cons_of_mem _ he', hwithin⟩, hless⟩
    · right
      use ⟨e, List.mem_cons_self .., hwithin⟩
      rcases ih (e.decode t) with ⟨-, heq⟩ | ⟨-, hless'⟩
      · rw [heq]
        exact hless
      · exact hless'.trans hless

end

/-! All rounds. -/

section
variable {c : Char} {t s w : Text}

theorem separate_laterEntities : Separate laterEntities := by
  unfold laterEntities
  repeat' first
    | exact Separate.nil
    | apply Separate.cons (by decide) (by decide)

/-- A character that is not special is spelled by itself. -/
theorem spellings_cases (hw : w ∈ spellings c) :
    (c = '&' ∧ w = ampersand.text) ∨ (∃ e ∈ laterEntities, e.character = c ∧ e.text = w) ∨
      (c ≠ '&' ∧ c ≠ '<' ∧ w = [c]) := by
  unfold spellings at hw
  split_ifs at hw with hamp hlt hgt hquot hapos
  · left
    exact ⟨hamp, List.mem_singleton.mp hw⟩
  · right; left
    rw [hlt, List.mem_singleton.mp hw]
    decide
  · right; left
    rw [hgt, List.mem_singleton.mp hw]
    decide
  · right; left
    rw [hquot, List.mem_singleton.mp hw]
    decide
  · right; left
    rw [hapos]
    rcases List.mem_cons.mp hw with rfl | hw
    · decide
    · rw [List.mem_singleton.mp hw]
      decide
  · right; right
    exact ⟨hamp, hlt, List.mem_singleton.mp hw⟩

/-- Escaped text is spelled with the later entities behind the ampersands. -/
theorem Escaped.decode (h : Escaped t s) : Spelled laterEntities t (ampersand.decode s) := by
  induction h with
  | nil => exact Spelled.nil
  | @cons c w t s hw _ ih =>
    rcases spellings_cases hw with ⟨rfl, rfl⟩ | ⟨e, he, rfl, rfl⟩ | ⟨hne, -, rfl⟩
    · rw [Entity.decode_append]
      exact Spelled.plain '&' ih
    · have hother : ∀ e ∈ laterEntities, ampersand.text ≠ e.text := by decide
      rw [Entity.decode_other (hother e he)]
      exact Spelled.entity he ih
    · rw [List.singleton_append, Entity.decode_ne hne]
      exact Spelled.plain c ih

theorem Escaped.decodeEntities (h : Escaped t s) :
    decodeEntities s = laterEntities.foldl Entity.decode t := by
  rw [decodeEntities_eq]
  exact h.decode.foldl separate_laterEntities

theorem decode_later (t : Text) :
    (Clean t ∧ laterEntities.foldl Entity.decode t = t) ∨
      (¬Clean t ∧ (laterEntities.foldl Entity.decode t).length < t.length) := by
  rcases foldl_decode laterEntities t with h | ⟨⟨e, he, hwithin⟩, hless⟩
  · exact Or.inl h
  · exact Or.inr ⟨fun hclean => hclean e he hwithin, hless⟩

/-- Escaped text is decoded to the text exactly when the text is clean. -/
theorem Escaped.decodeEntities_iff (h : Escaped t s) :
    Tools.decodeEntities s = t ↔ Clean t := by
  rw [h.decodeEntities]
  rcases decode_later t with ⟨hclean, hsame⟩ | ⟨hnot, hless⟩
  · exact iff_of_true hsame hclean
  · constructor
    · intro hsame
      rw [hsame] at hless
      exact absurd hless (lt_irrefl _)
    · exact fun hclean => absurd hclean hnot

/-! Escaped text and whitespace. -/

theorem spelling_visible (hc : isWhitespace c = false) (hw : w ∈ spellings c) :
    ∀ d ∈ w, isWhitespace d = false := by
  have hentity : ∀ e ∈ ampersand :: laterEntities,
      (e.text.all fun d => !isWhitespace d) = true := by decide
  have hall : ∀ e ∈ ampersand :: laterEntities, ∀ d ∈ e.text, isWhitespace d = false := by
    intro e he d hd
    simpa using List.all_eq_true.mp (hentity e he) d hd
  rcases spellings_cases hw with ⟨rfl, rfl⟩ | ⟨e, he, rfl, rfl⟩ | ⟨-, -, rfl⟩
  · exact hall ampersand (List.mem_cons_self ..)
  · exact hall e (List.mem_cons_of_mem _ he)
  · intro d hd
    rw [List.mem_singleton.mp hd]
    exact hc

theorem spelling_whitespace (hc : isWhitespace c = true) (hw : w ∈ spellings c) : w = [c] := by
  have hne : ∀ d, isWhitespace d = false → c ≠ d := by
    rintro d hd rfl
    rw [hd] at hc
    cases hc
  unfold spellings at hw
  rw [if_neg (hne '&' (by decide)), if_neg (hne '<' (by decide)), if_neg (hne '>' (by decide)),
    if_neg (hne '"' (by decide)), if_neg (hne '\'' (by decide))] at hw
  exact List.mem_singleton.mp hw

theorem spelling_ne_nil (hw : w ∈ spellings c) : w ≠ [] := by
  rcases spellings_cases hw with ⟨-, rfl⟩ | ⟨e, -, -, rfl⟩ | ⟨-, -, rfl⟩
  · exact Entity.text_ne_nil
  · exact Entity.text_ne_nil
  · exact List.cons_ne_nil c []

/-- Escaped text has no opening bracket. -/
theorem Escaped.lt_notMem (h : Escaped t s) : '<' ∉ s := by
  have hentity : ∀ e ∈ ampersand :: laterEntities, '<' ∉ e.text := by decide
  induction h with
  | nil => exact List.not_mem_nil
  | cons hw _ ih =>
    rw [List.mem_append, not_or]
    constructor
    · rcases spellings_cases hw with ⟨rfl, rfl⟩ | ⟨e, he, rfl, rfl⟩ | ⟨-, hlt, rfl⟩
      · exact hentity ampersand (List.mem_cons_self ..)
      · exact hentity e (List.mem_cons_of_mem _ he)
      · exact fun hmem => hlt (List.mem_singleton.mp hmem).symm
    · exact ih

theorem Escaped.trimStart (h : Escaped t s) : Escaped (trimStart t) (trimStart s) := by
  induction h with
  | nil => exact Escaped.nil
  | @cons c w t s hw h ih =>
    by_cases hc : isWhitespace c = true
    · rw [spelling_whitespace hc hw, List.singleton_append]
      unfold DeepseekScience.trimStart at ih ⊢
      rw [List.dropWhile_cons_of_pos hc, List.dropWhile_cons_of_pos hc]
      exact ih
    · have hc : isWhitespace c = false := Bool.eq_false_iff.mpr hc
      obtain ⟨d, rest, rfl⟩ := List.exists_cons_of_ne_nil (spelling_ne_nil hw)
      have hd := spelling_visible hc hw d (List.mem_cons_self ..)
      rw [trimStart_eq_self hc, List.cons_append, trimStart_eq_self hd, ← List.cons_append]
      exact Escaped.cons hw h

/-- Escaped text whose last character is known. -/
theorem Escaped.of_concat (h : Escaped (t ++ [c]) s) :
    ∃ s' w, s = s' ++ w ∧ w ∈ spellings c ∧ Escaped t s' := by
  induction t generalizing s with
  | nil =>
    cases h with
    | @cons _ w _ _ hw h =>
      cases h
      exact ⟨[], w, List.append_nil w, hw, Escaped.nil⟩
  | cons d t ih =>
    cases h with
    | @cons _ w _ _ hw h =>
      obtain ⟨s', w', rfl, hw', h'⟩ := ih h
      exact ⟨w ++ s', w', (List.append_assoc ..).symm, hw', Escaped.cons hw h'⟩

theorem trimEnd_concat (hc : isWhitespace c = true) (t : Text) :
    trimEnd (t ++ [c]) = trimEnd t := by
  unfold trimEnd
  rw [List.reverse_append, List.reverse_singleton, List.singleton_append,
    List.dropWhile_cons_of_pos hc]

theorem trimEnd_eq_self (hc : isWhitespace c = false) (t : Text) :
    trimEnd (t ++ [c]) = t ++ [c] := by
  unfold trimEnd
  rw [List.reverse_append, List.reverse_singleton, List.singleton_append,
    List.dropWhile_cons_of_neg (by rw [hc]; exact Bool.false_ne_true), List.reverse_cons,
    List.reverse_reverse]

theorem Escaped.trimEnd (h : Escaped t s) : Escaped (trimEnd t) (trimEnd s) := by
  induction t using List.reverseRecOn generalizing s with
  | nil =>
    cases h
    exact Escaped.nil
  | append_singleton t c ih =>
    obtain ⟨s', w, rfl, hw, h'⟩ := h.of_concat
    by_cases hc : isWhitespace c = true
    · rw [spelling_whitespace hc hw, trimEnd_concat hc, trimEnd_concat hc]
      exact ih h'
    · have hc : isWhitespace c = false := Bool.eq_false_iff.mpr hc
      obtain ⟨w', d, rfl⟩ := (List.eq_nil_or_concat' w).resolve_left (spelling_ne_nil hw)
      have hd := spelling_visible hc hw d (List.mem_append_right _ (List.mem_singleton_self d))
      rw [trimEnd_eq_self hc, ← List.append_assoc, trimEnd_eq_self hd, List.append_assoc]
      exact h

theorem Escaped.trim (h : Escaped t s) : Escaped (trim t) (trim s) := h.trimStart.trimEnd

end

end DeepseekScience.Tools
