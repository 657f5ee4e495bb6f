import Mathlib
import DeepseekScience.Dsml.Parser

/-! Rendering of control tags, in every spelling that the protocol allows, and their
recognition: the parser reads a rendered tag back, whatever text follows it. -/
namespace DeepseekScience.Dsml

/-- The lowercase word of a tag name. -/
def TagName.word : TagName → Text
  | .toolCalls => "tool_calls".toList
  | .invoke => "invoke".toList
  | .parameter => "parameter".toList

/-- One way to spell the head of a tag: bar character, single or double bars, letter case. -/
structure TagSpelling (name : TagName) where
  bar : Char
  bar_ok : isProtocolBar bar = true
  doubled : Bool
  dsml : Text
  dsml_ok : eqIgnoreAsciiCase dsml "DSML".toList = true
  word : Text
  word_ok : eqIgnoreAsciiCase word name.word = true

namespace TagSpelling
variable {name : TagName}

def bars (s : TagSpelling name) : Text := if s.doubled then [s.bar, s.bar] else [s.bar]

def head (s : TagSpelling name) : Text := s.bars ++ (s.dsml ++ (s.bars ++ s.word))

end TagSpelling

/-- Quoted attributes, each behind one space. -/
def renderAttributes (attrs : List (Text × Text)) : Text :=
  attrs.flatMap fun attr => ' ' :: (attr.1 ++ '=' :: '"' :: (attr.2 ++ ['"']))

/-- An opening tag without its `<`. -/
def TagSpelling.opening {name : TagName} (s : TagSpelling name) (attrs : List (Text × Text)) :
    Text := s.head ++ (renderAttributes attrs ++ ['>'])

/-- A closing tag without its `<`. -/
def TagSpelling.closing {name : TagName} (s : TagSpelling name) : Text := '/' :: (s.head ++ ['>'])

/-- The characters of the words in a tag head. -/
def isTagWordChar (c : Char) : Bool := isAsciiAlphabetic c || c == '_'

theorem isTagWordChar_toLower (c : Char) : isTagWordChar c.toLower = isTagWordChar c := by
  simp only [isTagWordChar, isAsciiAlphabetic, Char.isAlpha_toLower_eq_isAlpha]
  by_cases h : c.isUpper = true
  · simp [Char.isAlpha, h]
  · rw [Char.toLower_eq_of_not_isUpper h]

theorem isTagWordChar_range {c : Char} (h : isTagWordChar c = true) :
    65 ≤ c.toNat ∧ c.toNat ≤ 122 := by
  simp only [isTagWordChar, isAsciiAlphabetic, Char.isAlpha, Char.isUpper, Char.isLower,
    Bool.or_eq_true, Bool.and_eq_true, decide_eq_true_eq, beq_iff_eq] at h
  rcases h with (h | h) | rfl
  · exact ⟨h.1, le_trans h.2 (by decide)⟩
  · exact ⟨le_trans (by decide) h.1, h.2⟩
  · decide

theorem byteLen_of_isTagWordChar {t : Text} (h : ∀ c ∈ t, isTagWordChar c = true) :
    byteLen t = t.length := by
  have hone : ∀ c ∈ t, c.utf8Size = 1 := by
    intro c hc
    have hrange := isTagWordChar_range (h c hc)
    rw [Char.utf8Size, if_pos]
    show c.val ≤ 127
    exact UInt32.le_iff_toNat_le.mpr (le_trans hrange.2 (by decide))
  have hmap : t.map Char.utf8Size = List.replicate t.length 1 :=
    List.eq_replicate_iff.mpr ⟨by simp, by simpa using hone⟩
  rw [byteLen, hmap]
  simp

theorem isTagWordChar_ne {c d : Char} (h : isTagWordChar c = true)
    (hd : isTagWordChar d = false := by decide) : c ≠ d := by
  rintro rfl
  rw [h] at hd
  cases hd

theorem not_isWhitespace_of_isTagWordChar {c : Char} (h : isTagWordChar c = true) :
    isWhitespace c = false := by
  have := isTagWordChar_range h
  simp only [isWhitespace, Bool.or_eq_false_iff, Bool.and_eq_false_iff, decide_eq_false_iff_not,
    beq_eq_false_iff_ne]
  omega

theorem not_isProtocolBar_of_isTagWordChar {c : Char} (h : isTagWordChar c = true) :
    isProtocolBar c = false := by
  simp [isProtocolBar, isTagWordChar_ne h (d := '|'), isTagWordChar_ne h (d := '｜')]

theorem isProtocolBar_ne {c d : Char} (h : isProtocolBar c = true)
    (hd : isProtocolBar d = false := by decide) : c ≠ d := by
  rintro rfl
  rw [h] at hd
  cases hd

theorem not_isWhitespace_of_isProtocolBar {c : Char} (h : isProtocolBar c = true) :
    isWhitespace c = false := by
  simp only [isProtocolBar, Bool.or_eq_true, beq_iff_eq] at h
  rcases h with rfl | rfl <;> decide

/-- A word that differs in letter case only has the same kind of characters. -/
theorem all_isTagWordChar {word w : Text} (h : eqIgnoreAsciiCase word w = true)
    (hw : (toAsciiLowercase w).all isTagWordChar = true) : ∀ c ∈ word, isTagWordChar c = true := by
  rw [eqIgnoreAsciiCase, beq_iff_eq] at h
  intro c hc
  rw [← isTagWordChar_toLower]
  exact List.all_eq_true.mp hw _ (h ▸ List.mem_map_of_mem hc)

namespace TagSpelling
variable {name : TagName} (s : TagSpelling name)

theorem mem_bars {c : Char} (h : c ∈ s.bars) : c = s.bar := by
  simp only [bars] at h
  split_ifs at h <;> simpa using h

theorem dsml_chars : ∀ c ∈ s.dsml, isTagWordChar c = true :=
  all_isTagWordChar s.dsml_ok (by decide)

theorem word_chars : ∀ c ∈ s.word, isTagWordChar c = true :=
  all_isTagWordChar s.word_ok (by cases name <;> decide)

theorem upper_dsml : toAsciiUppercase s.dsml = "DSML".toList := by
  have h := s.dsml_ok
  rw [eqIgnoreAsciiCase, beq_iff_eq, toAsciiLowercase] at h
  have := congrArg (List.map Char.toUpper) h
  simpa [toAsciiUppercase, toAsciiLowercase, Function.comp_def] using this

theorem length_dsml : s.dsml.length = 4 := by
  simpa [toAsciiUppercase] using congrArg List.length s.upper_dsml

theorem dsml_alphabetic : ∀ c ∈ s.dsml, isAsciiAlphabetic c = true := by
  have h := s.dsml_ok
  rw [eqIgnoreAsciiCase, beq_iff_eq] at h
  intro c hc
  have hmem : c.toLower ∈ toAsciiLowercase "DSML".toList := h ▸ List.mem_map_of_mem hc
  rw [isAsciiAlphabetic, ← Char.isAlpha_toLower_eq_isAlpha]
  revert hmem
  generalize c.toLower = l
  intro hmem
  exact List.all_eq_true.mp (by decide : (toAsciiLowercase "DSML".toList).all Char.isAlpha) l hmem

theorem byteLen_dsml : byteLen s.dsml = 4 :=
  (byteLen_of_isTagWordChar s.dsml_chars).trans s.length_dsml

/-- The head has no whitespace and no tag delimiter in it. -/
theorem head_chars : ∀ c ∈ s.head, isWhitespace c = false ∧ c ≠ '>' ∧ c ≠ '<' := by
  have hbar : isWhitespace s.bar = false ∧ s.bar ≠ '>' ∧ s.bar ≠ '<' :=
    ⟨not_isWhitespace_of_isProtocolBar s.bar_ok, isProtocolBar_ne s.bar_ok,
      isProtocolBar_ne s.bar_ok⟩
  have hword : ∀ c, isTagWordChar c = true → isWhitespace c = false ∧ c ≠ '>' ∧ c ≠ '<' :=
    fun c hc => ⟨not_isWhitespace_of_isTagWordChar hc, isTagWordChar_ne hc, isTagWordChar_ne hc⟩
  intro c hc
  simp only [head, List.mem_append] at hc
  rcases hc with hc | hc | hc | hc
  · exact s.mem_bars hc ▸ hbar
  · exact hword c (s.dsml_chars c hc)
  · exact s.mem_bars hc ▸ hbar
  · exact hword c (s.word_chars c hc)

end TagSpelling

/-- The bars of a spelling, read in front of text that goes on with another character. -/
theorem takeProtocolBars_bars {name : TagName} (s : TagSpelling name) {c : Char} {rest : Text}
    (hc : isProtocolBar c = false) :
    takeProtocolBars (s.bars ++ c :: rest) = (s.bars.length, c :: rest, some s.bar, true) := by
  simp only [TagSpelling.bars]
  split_ifs <;> simp [takeProtocolBars, takeProtocolBarsFrom, s.bar_ok, hc]

theorem takeProtocolBars_not_bar {c : Char} {rest : Text} (hc : isProtocolBar c = false) :
    takeProtocolBars (c :: rest) = (0, c :: rest, none, true) := by
  simp [takeProtocolBars, takeProtocolBarsFrom, hc]

namespace TagSpelling
variable {name : TagName} (s : TagSpelling name)

theorem length_bars : 1 ≤ s.bars.length ∧ s.bars.length ≤ 2 := by
  simp only [bars]
  split_ifs <;> simp

theorem exists_bars : ∃ rest, s.bars = s.bar :: rest := by
  simp only [bars]
  split_ifs <;> simp

theorem exists_dsml : ∃ c rest, s.dsml = c :: rest ∧ isProtocolBar c = false := by
  obtain ⟨c, rest, h⟩ := List.exists_cons_of_length_eq_add_one s.length_dsml
  exact ⟨c, rest, h, not_isProtocolBar_of_isTagWordChar (s.dsml_chars c (by simp [h]))⟩

theorem lower_word : toAsciiLowercase s.word = toAsciiLowercase name.word := by
  have h := s.word_ok
  rwa [eqIgnoreAsciiCase, beq_iff_eq] at h

theorem exists_word : ∃ c rest, s.word = c :: rest ∧ isProtocolBar c = false := by
  have hlen : 0 < s.word.length := by
    have := congrArg List.length s.lower_word
    simp only [toAsciiLowercase, List.length_map] at this
    rw [this]
    cases name <;> decide
  obtain ⟨c, rest, h⟩ := List.exists_cons_of_length_pos hlen
  exact ⟨c, rest, h, not_isProtocolBar_of_isTagWordChar (s.word_chars c (by simp [h]))⟩

/-- The head of a tag names the tag. -/
theorem parseDsmlHead_head : parseDsmlHead s.head = .ok (some name) := by
  obtain ⟨d, ds, hdsml, hd⟩ := s.exists_dsml
  obtain ⟨w, ws, hword, hw⟩ := s.exists_word
  have hlead : takeProtocolBars s.head =
      (s.bars.length, s.dsml ++ (s.bars ++ s.word), some s.bar, true) := by
    rw [head, hdsml]
    exact takeProtocolBars_bars s hd
  have htrail : takeProtocolBars (s.bars ++ s.word) =
      (s.bars.length, s.word, some s.bar, true) := by
    rw [hword]
    exact takeProtocolBars_bars s hw
  have hlead₀ : getPrefixBytes 4 (s.dsml ++ (s.bars ++ s.word)) = some s.dsml := by
    have hbound := isCharBoundary_append s.dsml (s.bars ++ s.word)
    have htake := takeBytes_append s.dsml (s.bars ++ s.word)
    rw [s.byteLen_dsml] at hbound htake
    rw [getPrefixBytes, hbound, htake, if_pos rfl]
  have hbehind : dropBytes 4 (s.dsml ++ (s.bars ++ s.word)) = s.bars ++ s.word := by
    have hdrop := dropBytes_append s.dsml (s.bars ++ s.word)
    rwa [s.byteLen_dsml] at hdrop
  have hlen := s.length_bars
  have hzero : ¬ s.bars.length = 0 := by omega
  have htwo : ¬ s.bars.length > 2 := by omega
  simp only [parseDsmlHead, hlead, hzero, htwo, hlead₀, s.dsml_ok, hbehind, htrail, s.lower_word,
    hlen, decide_true, decide_false, Bool.not_true, Bool.or_false, Bool.and_true, bne_self_eq_false,
    Bool.false_eq_true, if_false]
  cases name <;> rfl

theorem takeProtocolBars_head (rest : Text) : takeProtocolBars (s.head ++ rest) =
    (s.bars.length, s.dsml ++ (s.bars ++ (s.word ++ rest)), some s.bar, true) := by
  obtain ⟨d, ds, hdsml, hd⟩ := s.exists_dsml
  rw [head, hdsml]
  simpa using takeProtocolBars_bars s hd

theorem takeWhile_dsml (rest : Text) :
    (s.dsml ++ (s.bars ++ rest)).takeWhile isAsciiAlphabetic = s.dsml := by
  obtain ⟨bars, hbars⟩ := s.exists_bars
  have hbar : isAsciiAlphabetic s.bar = false := by
    have h := s.bar_ok
    simp only [isProtocolBar, Bool.or_eq_true, beq_iff_eq] at h
    rcases h with h | h <;> rw [h] <;> decide
  rw [List.takeWhile_append_of_pos s.dsml_alphabetic, hbars]
  simp [hbar]

theorem hasDsmlCandidatePrefix_opening (rest : Text) :
    hasDsmlCandidatePrefix (s.head ++ rest) = true := by
  obtain ⟨bars, hbars⟩ := s.exists_bars
  have hslash : stripPrefixChar '/' (s.head ++ rest) = none := by
    simp [head, hbars, stripPrefixChar, isProtocolBar_ne s.bar_ok (d := '/')]
  have hlen := s.length_bars
  have hzero : ¬ s.bars.length = 0 := by omega
  have htwo : ¬ s.bars.length > 2 := by omega
  simp only [hasDsmlCandidatePrefix, hslash, Option.getD_none, s.takeProtocolBars_head, hzero, htwo,
    s.takeWhile_dsml, List.take_of_length_le s.length_dsml.le, s.upper_dsml, if_false]
  rfl

theorem hasDsmlCandidatePrefix_closing (rest : Text) :
    hasDsmlCandidatePrefix ('/' :: (s.head ++ rest)) = true := by
  have hlen := s.length_bars
  have hzero : ¬ s.bars.length = 0 := by omega
  have htwo : ¬ s.bars.length > 2 := by omega
  simp only [hasDsmlCandidatePrefix, stripPrefixChar, if_true, Option.getD_some,
    s.takeProtocolBars_head, hzero, htwo, s.takeWhile_dsml,
    List.take_of_length_le s.length_dsml.le, s.upper_dsml, if_false]
  rfl

end TagSpelling

/-- Attributes that the attribute grammar reads back: lowercase keys, each used once, and
values that end at their quote and inside of the tag. -/
structure PlainAttributes (attrs : List (Text × Text)) : Prop where
  key_ne : ∀ attr ∈ attrs, attr.1 ≠ []
  key_chars : ∀ attr ∈ attrs, ∀ c ∈ attr.1, isAttributeKeyChar c = true
  key_lower : ∀ attr ∈ attrs, toAsciiLowercase attr.1 = attr.1
  keys_nodup : (attrs.map Prod.fst).Nodup
  value_quote : ∀ attr ∈ attrs, '"' ∉ attr.2
  value_end : ∀ attr ∈ attrs, '>' ∉ attr.2

theorem isAttributeKeyChar_not_isWhitespace {c : Char} (h : isAttributeKeyChar c = true) :
    isWhitespace c = false := by
  have hrange : 45 ≤ c.toNat ∧ c.toNat ≤ 122 := by
    simp only [isAttributeKeyChar, isAsciiAlphanumeric, Char.isAlphanum, Char.isAlpha,
      Char.isUpper, Char.isLower, Char.isDigit, Bool.or_eq_true, Bool.and_eq_true,
      decide_eq_true_eq, beq_iff_eq] at h
    rcases h with (((h | h) | h) | rfl) | rfl
    · exact ⟨le_trans (by decide) h.1, le_trans h.2 (by decide)⟩
    · exact ⟨le_trans (by decide) h.1, h.2⟩
    · exact ⟨le_trans (by decide) h.1, le_trans h.2 (by decide)⟩
    · decide
    · decide
  simp only [isWhitespace, Bool.or_eq_false_iff, Bool.and_eq_false_iff, decide_eq_false_iff_not,
    beq_eq_false_iff_ne]
  omega

/-- One rendered attribute is read back, whatever follows it. -/
theorem parseAttributesFrom_cons (fuel : ℕ) {key value : Text} (rest : Text) {attrs : List (Text × Text)}
    (hne : key ≠ []) (hkey : ∀ c ∈ key, isAttributeKeyChar c = true)
    (hlower : toAsciiLowercase key = key) (hquote : '"' ∉ value)
    (hfresh : attrs.lookup key = none) :
    parseAttributesFrom (fuel + 1) (' ' :: (key ++ '=' :: '"' :: (value ++ '"' :: rest))) attrs =
      parseAttributesFrom fuel rest (attrs ++ [(key, value)]) := by
  obtain ⟨k, ks, rfl⟩ := List.exists_cons_of_ne_nil hne
  have hk : isWhitespace k = false :=
    isAttributeKeyChar_not_isWhitespace (hkey k List.mem_cons_self)
  have htrim : trimStart (' ' :: (k :: ks ++ '=' :: '"' :: (value ++ '"' :: rest))) =
      k :: ks ++ '=' :: '"' :: (value ++ '"' :: rest) := by
    simp [trimStart, isWhitespace_space, hk]
  have htake : (k :: ks ++ '=' :: '"' :: (value ++ '"' :: rest)).takeWhile isAttributeKeyChar =
      k :: ks := by
    rw [List.takeWhile_append_of_pos hkey, List.takeWhile_cons_of_neg (by decide), List.append_nil]
  have hdrop : (k :: ks ++ '=' :: '"' :: (value ++ '"' :: rest)).dropWhile isAttributeKeyChar =
      '=' :: '"' :: (value ++ '"' :: rest) := by
    rw [List.dropWhile_append_of_pos hkey, List.dropWhile_cons_of_neg (by decide)]
  have hvalue : parseAttributeValue ('"' :: (value ++ '"' :: rest)) = .ok (value, rest) := by
    simp [parseAttributeValue, takeWhile_ne_append hquote, dropWhile_ne_append hquote]
  have heq : trimStart ('=' :: '"' :: (value ++ '"' :: rest)) =
      '=' :: '"' :: (value ++ '"' :: rest) := trimStart_eq_self (by decide) _
  have hq : trimStart ('"' :: (value ++ '"' :: rest)) = '"' :: (value ++ '"' :: rest) :=
    trimStart_eq_self (by decide) _
  rw [parseAttributesFrom, htrim]
  simp only [htake, hdrop, hlower, heq, stripPrefixChar, if_true, hq, hvalue, hfresh]
  simp

theorem parseAttributesFrom_render {attrs : List (Text × Text)} (h : PlainAttributes attrs)
    {seen : List (Text × Text)} (hseen : ∀ attr ∈ attrs, seen.lookup attr.1 = none) {fuel : ℕ}
    (hfuel : attrs.length < fuel) :
    parseAttributesFrom fuel (renderAttributes attrs) seen = .ok (seen ++ attrs) := by
  induction attrs generalizing seen fuel with
  | nil =>
    obtain ⟨fuel, rfl⟩ := Nat.exists_eq_succ_of_ne_zero (Nat.ne_of_gt hfuel)
    simp [parseAttributesFrom, renderAttributes, trimStart]
  | cons attr attrs ih =>
    obtain ⟨key, value⟩ := attr
    obtain ⟨fuel, rfl⟩ := Nat.exists_eq_succ_of_ne_zero (Nat.ne_of_gt (Nat.zero_lt_of_lt hfuel))
    have hnodup : key ∉ attrs.map Prod.fst ∧ (attrs.map Prod.fst).Nodup := by
      simpa using h.keys_nodup
    have htail : PlainAttributes attrs :=
      ⟨fun a ha => h.key_ne a (List.mem_cons_of_mem _ ha),
        fun a ha => h.key_chars a (List.mem_cons_of_mem _ ha),
        fun a ha => h.key_lower a (List.mem_cons_of_mem _ ha), hnodup.2,
        fun a ha => h.value_quote a (List.mem_cons_of_mem _ ha),
        fun a ha => h.value_end a (List.mem_cons_of_mem _ ha)⟩
    have hhead := List.mem_cons_self (a := (key, value)) (l := attrs)
    have hnext : ∀ a ∈ attrs, (seen ++ [(key, value)]).lookup a.1 = none := by
      intro a ha
      have hne : a.1 ≠ key := fun he => hnodup.1 (he ▸ List.mem_map_of_mem ha)
      rw [List.lookup_append, hseen a (List.mem_cons_of_mem _ ha)]
      simp [List.lookup_cons, beq_eq_false_iff_ne.mpr hne]
    have hstep := parseAttributesFrom_cons fuel (renderAttributes attrs)
      (h.key_ne _ hhead) (h.key_chars _ hhead) (h.key_lower _ hhead) (h.value_quote _ hhead)
      (hseen _ hhead)
    have hrender : renderAttributes ((key, value) :: attrs) =
        ' ' :: (key ++ '=' :: '"' :: (value ++ '"' :: renderAttributes attrs)) := by
      simp [renderAttributes]
    rw [hrender, hstep, ih htail hnext (by simpa using hfuel), List.append_assoc,
      List.singleton_append]

theorem length_le_renderAttributes (attrs : List (Text × Text)) :
    attrs.length ≤ (renderAttributes attrs).length := by
  induction attrs with
  | nil => rfl
  | cons attr attrs ih =>
    simp only [renderAttributes, List.flatMap_cons, List.length_append, List.length_cons] at ih ⊢
    omega

/-- Rendered attributes are read back. -/
theorem parseAttributes_render {attrs : List (Text × Text)} (h : PlainAttributes attrs) :
    parseAttributes (renderAttributes attrs) = .ok attrs :=
  parseAttributesFrom_render h (fun _ _ => rfl)
    (Nat.lt_succ_of_le (length_le_renderAttributes attrs))

theorem gt_notMem_renderAttributes {attrs : List (Text × Text)} (h : PlainAttributes attrs) :
    '>' ∉ renderAttributes attrs := by
  intro hm
  obtain ⟨attr, ha, hm⟩ := List.mem_flatMap.mp hm
  simp only [List.mem_cons, List.mem_append, List.not_mem_nil, or_false] at hm
  rcases hm with hm | hm | hm | hm | hm | hm
  · exact absurd hm (by decide)
  · exact absurd (h.key_chars attr ha _ hm) (by decide)
  · exact absurd hm (by decide)
  · exact absurd hm (by decide)
  · exact h.value_end attr ha hm
  · exact absurd hm (by decide)

/-- Attributes are empty, or a space and more text that ends with a quote. -/
theorem renderAttributes_cases (attrs : List (Text × Text)) :
    attrs = [] ∨ ∃ mid, renderAttributes attrs = ' ' :: (mid ++ ['"']) := by
  rcases List.eq_nil_or_concat attrs with rfl | ⟨init, last, rfl⟩
  · exact Or.inl rfl
  · right
    cases init with
    | nil => exact ⟨last.1 ++ '=' :: '"' :: last.2, by simp [renderAttributes]⟩
    | cons first init =>
      refine ⟨first.1 ++ '=' :: '"' :: (first.2 ++ '"' :: (renderAttributes init ++
        ' ' :: (last.1 ++ '=' :: '"' :: last.2))), by simp [renderAttributes]⟩

namespace TagSpelling
variable {name : TagName} (s : TagSpelling name)

theorem head_eq_cons : ∃ rest, s.head = s.bar :: rest := by
  obtain ⟨bars, hbars⟩ := s.exists_bars
  exact ⟨_, by rw [head, hbars, List.cons_append]⟩

theorem head_eq_concat : ∃ init d, s.head = init ++ [d] ∧ isWhitespace d = false := by
  obtain ⟨rest, h⟩ := s.head_eq_cons
  have hne : s.head ≠ [] := by simp [h]
  exact ⟨s.head.dropLast, s.head.getLast hne, (List.dropLast_append_getLast hne).symm,
    (s.head_chars _ (List.getLast_mem hne)).1⟩

theorem gt_notMem_head : '>' ∉ s.head := fun h => (s.head_chars _ h).2.1 rfl

/-- The head ends where the attributes start. -/
theorem takeWhile_head (attrs : List (Text × Text)) :
    (s.head ++ renderAttributes attrs).takeWhile (!isWhitespace ·) = s.head ∧
      (s.head ++ renderAttributes attrs).dropWhile (!isWhitespace ·) = renderAttributes attrs := by
  have hhead : ∀ c ∈ s.head, (!isWhitespace c) = true := fun c hc => by
    simp [(s.head_chars c hc).1]
  rw [List.takeWhile_append_of_pos hhead, List.dropWhile_append_of_pos hhead]
  rcases renderAttributes_cases attrs with rfl | ⟨mid, hmid⟩
  · simp [renderAttributes]
  · simp [hmid, isWhitespace_space]

/-- An opening tag is recognized in front of any text. -/
theorem parseCandidateTag_opening {attrs : List (Text × Text)} (h : PlainAttributes attrs)
    (rest : Text) :
    parseCandidateTag (s.opening attrs ++ rest) = .ok (.dsml ⟨name, false, attrs⟩) := by
  have htext : s.opening attrs ++ rest = (s.head ++ renderAttributes attrs) ++ '>' :: rest := by
    simp [opening]
  have hgt : '>' ∉ s.head ++ renderAttributes attrs := by
    simp [s.gt_notMem_head, gt_notMem_renderAttributes h]
  have hcandidate : hasDsmlCandidatePrefix (s.opening attrs ++ rest) = true := by
    rw [htext, List.append_assoc]
    exact s.hasDsmlCandidatePrefix_opening _
  obtain ⟨behind, hcons⟩ := s.head_eq_cons
  have htrim : trim (s.head ++ renderAttributes attrs) = s.head ++ renderAttributes attrs := by
    have hlast : ∃ init d, s.head ++ renderAttributes attrs = init ++ [d] ∧
        isWhitespace d = false := by
      rcases renderAttributes_cases attrs with rfl | ⟨mid, hmid⟩
      · simpa [renderAttributes] using s.head_eq_concat
      · exact ⟨s.head ++ ' ' :: mid, '"', by simp [hmid], by decide⟩
    obtain ⟨init, d, heq, hd⟩ := hlast
    rw [hcons, List.cons_append] at heq ⊢
    exact trim_eq_self (not_isWhitespace_of_isProtocolBar s.bar_ok) hd heq
  have hslash : stripPrefixChar '/' (s.head ++ renderAttributes attrs) = none := by
    simp [hcons, stripPrefixChar, isProtocolBar_ne s.bar_ok (d := '/')]
  have hmem : '>' ∈ s.opening attrs ++ rest := by simp [htext]
  simp only [parseCandidateTag, hcandidate, hmem]
  simp only [htext, takeWhile_ne_append hgt, htrim, hslash, s.takeWhile_head,
    s.parseDsmlHead_head, parseAttributes_render h]
  simp

/-- A closing tag is recognized in front of any text. -/
theorem parseCandidateTag_closing (rest : Text) :
    parseCandidateTag (s.closing ++ rest) = .ok (.dsml ⟨name, true, []⟩) := by
  have htext : s.closing ++ rest = ('/' :: s.head) ++ '>' :: rest := by simp [closing]
  have hgt : '>' ∉ '/' :: s.head := by simp [s.gt_notMem_head]
  have hcandidate : hasDsmlCandidatePrefix (s.closing ++ rest) = true := by
    rw [htext, List.cons_append]
    exact s.hasDsmlCandidatePrefix_closing _
  obtain ⟨behind, hcons⟩ := s.head_eq_cons
  have htrim : trim ('/' :: s.head) = '/' :: s.head := by
    obtain ⟨init, d, heq, hd⟩ := s.head_eq_concat
    exact trim_eq_self (s := '/' :: init) (by decide) hd (by rw [heq, List.cons_append])
  have hstart : trimStart s.head = s.head := by
    rw [hcons]
    exact trimStart_eq_self (not_isWhitespace_of_isProtocolBar s.bar_ok) _
  have hmem : '>' ∈ s.closing ++ rest := by simp [htext]
  have htake := s.takeWhile_head []
  simp only [renderAttributes, List.flatMap_nil, List.append_nil] at htake
  simp only [parseCandidateTag, hcandidate, hmem]
  simp only [htext, takeWhile_ne_append hgt, htrim, stripPrefixChar, if_true, hstart, htake,
    s.parseDsmlHead_head]
  simp [parseAttributes, parseAttributesFrom, trimStart]

theorem findTagEnd_opening {attrs : List (Text × Text)} (h : PlainAttributes attrs) (rest : Text) :
    findTagEnd (s.opening attrs ++ rest) = .ok rest := by
  have hgt : '>' ∉ s.head ++ renderAttributes attrs := by
    simp [s.gt_notMem_head, gt_notMem_renderAttributes h]
  have htext : s.opening attrs ++ rest = (s.head ++ renderAttributes attrs) ++ '>' :: rest := by
    simp [opening]
  rw [findTagEnd, htext, dropWhile_ne_append hgt]
  simp

theorem findTagEnd_closing (rest : Text) : findTagEnd (s.closing ++ rest) = .ok rest := by
  have hgt : '>' ∉ '/' :: s.head := by simp [s.gt_notMem_head]
  have htext : s.closing ++ rest = ('/' :: s.head) ++ '>' :: rest := by simp [closing]
  rw [findTagEnd, htext, dropWhile_ne_append hgt]
  simp

end TagSpelling

/-- Whether the text starts like the inside of a control tag: an optional slash, then a bar. -/
def startsLikeTag (t : Text) : Bool :=
  (((stripPrefixChar '/' t).getD t).head?).any isProtocolBar

/-- Text without a raw `<` that could start a control tag. -/
def isInert : Text → Bool
  | [] => true
  | c :: rest => !(c == '<' && startsLikeTag rest) && isInert rest

theorem isInert_of_allWhitespace {t : Text} (h : allWhitespace t = true) : isInert t = true := by
  have hlt := lt_notMem_of_allWhitespace h
  clear h
  induction t with
  | nil => rfl
  | cons c t ih =>
    rw [List.mem_cons, not_or] at hlt
    simp [isInert, ih hlt.2, Ne.symm hlt.1]

/-- A `<` of inert text starts no tag, also when the next tag follows directly. -/
theorem parseCandidateTag_inert {t : Text} (h : startsLikeTag t = false) (behind : Text) :
    parseCandidateTag (t ++ '<' :: behind) = .ok .notDsml := by
  have hbars : ∀ {c : Char} {rest : Text}, isProtocolBar c = false →
      (takeProtocolBars (c :: rest)).1 = 0 := fun hc => by rw [takeProtocolBars_not_bar hc]
  have hcandidate : hasDsmlCandidatePrefix (t ++ '<' :: behind) = false := by
    cases t with
    | nil => simp [hasDsmlCandidatePrefix, stripPrefixChar, hbars (c := '<') (by decide)]
    | cons c t =>
      by_cases hc : c = '/'
      · subst hc
        cases t with
        | nil => simp [hasDsmlCandidatePrefix, stripPrefixChar, hbars (c := '<') (by decide)]
        | cons d t =>
          have hd : isProtocolBar d = false := by simpa [startsLikeTag, stripPrefixChar] using h
          simp [hasDsmlCandidatePrefix, stripPrefixChar, hbars hd]
      · have hbar : isProtocolBar c = false := by simpa [startsLikeTag, stripPrefixChar, hc] using h
        simp [hasDsmlCandidatePrefix, stripPrefixChar, hc, hbars hbar]
  simp [parseCandidateTag, hcandidate]

/-- The raw scan passes inert text and stops at the tag behind it. -/
theorem findNextRawDsmlTag_inert {between behind rest : Text} {tag : DsmlTag}
    (h : isInert between = true) (htag : parseCandidateTag behind = .ok (.dsml tag))
    (hend : findTagEnd behind = .ok rest) :
    findNextRawDsmlTag (between ++ '<' :: behind) = .ok (some ⟨between, tag, rest⟩) := by
  induction between with
  | nil => simp [findNextRawDsmlTag, htag, hend, Except.map]
  | cons c between ih =>
    simp only [isInert, Bool.and_eq_true, Bool.not_eq_true', Bool.and_eq_false_iff] at h
    have hnext := ih h.2
    rw [List.cons_append, findNextRawDsmlTag]
    split_ifs with hc
    · have hstart : startsLikeTag between = false := by simpa [hc] using h.1
      simp only [parseCandidateTag_inert hstart, hnext, Except.map, Option.map, RawTag.prepend]
    · simp only [hnext, Except.map, Option.map, RawTag.prepend]

end DeepseekScience.Dsml
