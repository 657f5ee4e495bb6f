import DeepseekScience.Dsml.Render

/-! The constant-lookahead guard in front of the recognition of a candidate tag, and the
candidates that it overlooks. -/
namespace DeepseekScience.Dsml

/-- `parse_candidate_tag` behind its guard. -/
def recogniseCandidateTag (afterLt : Text) : Except DsmlError CandidateTag :=
  if '>' ∉ afterLt then
    let tail := trim afterLt
    let tail := trimStart ((stripPrefixChar '/' tail).getD tail)
    match parseDsmlHead (tail.takeWhile (!isWhitespace ·)) with
    | .ok none => .ok .notDsml
    | _ => .error .malformedTag
  else
    let inside := trim (afterLt.takeWhile (· != '>'))
    let (closing, inside) :=
      match stripPrefixChar '/' inside with
      | some rest => (true, trimStart rest)
      | none => (false, inside)
    match parseDsmlHead (inside.takeWhile (!isWhitespace ·)) with
    | .error e => .error e
    | .ok none => .ok .notDsml
    | .ok (some name) =>
      match parseAttributes (inside.dropWhile (!isWhitespace ·)) with
      | .error e => .error e
      | .ok attrs =>
        if closing && !attrs.isEmpty then .error .invalidAttributes
        else .ok (.dsml ⟨name, closing, attrs⟩)

theorem parseCandidateTag_eq (afterLt : Text) : parseCandidateTag afterLt =
    if !hasDsmlCandidatePrefix afterLt then .ok .notDsml else recogniseCandidateTag afterLt := rfl

def leadingBars (text : Text) : Text := text.takeWhile isProtocolBar

def behindBars (text : Text) : Text := text.dropWhile isProtocolBar

/-- All bars are the same character. -/
def sameBars (bars : Text) : Bool := bars.all fun c => bars.head? == some c

/-- The letters of the protocol, in any case, or the beginning of them up to the end. -/
def startsDsml (text : Text) : Bool :=
  "DSML".toList.isPrefixOf (toAsciiUppercase text) ||
    (toAsciiUppercase text).isPrefixOf "DSML".toList

/-- The heads that the recogniser does not pass as ordinary text. -/
def protocolHead (head : Text) : Bool :=
  !(leadingBars head).isEmpty && (decide (2 < (leadingBars head).length) ||
    !sameBars (leadingBars head) || startsDsml (behindBars head))

theorem takeProtocolBarsFrom_some (text : Text) (count : ℕ) (m : Char) (consistent : Bool) :
    takeProtocolBarsFrom text count (some m) consistent =
      (count + (leadingBars text).length, behindBars text, some m,
        consistent && (leadingBars text).all fun c => m == c) := by
  induction text generalizing count consistent with
  | nil => simp [takeProtocolBarsFrom, leadingBars, behindBars]
  | cons c rest ih =>
    by_cases hc : isProtocolBar c = true
    · simp only [takeProtocolBarsFrom, hc, if_true, Option.getD_some, ih, leadingBars, behindBars,
        List.takeWhile_cons_of_pos, List.dropWhile_cons_of_pos, List.length_cons, List.all_cons,
        Bool.and_assoc]
      rw [Nat.add_right_comm, Nat.add_assoc]
    · simp [takeProtocolBarsFrom, leadingBars, behindBars, hc]

/-- What the bars of a text are: how many, what is behind them, the first, and whether all agree. -/
theorem takeProtocolBars_eq (text : Text) : takeProtocolBars text =
    ((leadingBars text).length, behindBars text, (leadingBars text).head?,
      sameBars (leadingBars text)) := by
  cases text with
  | nil => rfl
  | cons c rest =>
    by_cases hc : isProtocolBar c = true
    · rw [takeProtocolBars, takeProtocolBarsFrom]
      simp only [hc, if_true, Option.getD_none, takeProtocolBarsFrom_some, leadingBars, behindBars,
        sameBars, List.takeWhile_cons_of_pos, List.dropWhile_cons_of_pos, List.length_cons,
        List.head?_cons, List.all_cons, beq_self_eq_true, Bool.true_and]
      simp [Nat.add_comm]
    · simp [takeProtocolBars, takeProtocolBarsFrom, leadingBars, behindBars, sameBars, hc]

theorem eqIgnoreAsciiCase_dsml (t : Text) :
    eqIgnoreAsciiCase t "DSML".toList = true ↔ toAsciiUppercase t = "DSML".toList := by
  rw [eqIgnoreAsciiCase, beq_iff_eq]
  constructor
  · intro h
    have := congrArg (List.map Char.toUpper) h
    simpa [toAsciiUppercase, toAsciiLowercase, Function.comp_def] using this
  · intro h
    have := congrArg (List.map Char.toLower) h
    simpa [toAsciiUppercase, toAsciiLowercase, Function.comp_def] using this

/-- A text whose letters are among those of the protocol consists of letters. -/
theorem alphabetic_of_upper {t : Text} (h : ∀ c ∈ toAsciiUppercase t, c ∈ "DSML".toList) :
    ∀ c ∈ t, isAsciiAlphabetic c = true := by
  intro c hc
  have hmem := h c.toUpper (List.mem_map_of_mem hc)
  rw [isAsciiAlphabetic, ← Char.isAlpha_toUpper_eq_isAlpha]
  exact List.all_eq_true.mp (by decide : "DSML".toList.all Char.isAlpha) _ hmem

theorem byteLen_of_alphabetic {t : Text} (h : ∀ c ∈ t, isAsciiAlphabetic c = true) :
    byteLen t = t.length :=
  byteLen_of_isTagWordChar fun c hc => by simp [isTagWordChar, h c hc]

/-- The first four bytes are the letters of the protocol, when these are in front. -/
theorem getPrefixBytes_of_upper {d : Text} (h : toAsciiUppercase d = "DSML".toList) (rest : Text) :
    getPrefixBytes 4 (d ++ rest) = some d := by
  have hlen : byteLen d = 4 := by
    rw [byteLen_of_alphabetic (alphabetic_of_upper fun c hc => h ▸ hc)]
    simpa [toAsciiUppercase] using congrArg List.length h
  rw [getPrefixBytes, ← hlen, isCharBoundary_append, if_pos rfl, takeBytes_append]

theorem startsDsml_iff (t : Text) : startsDsml t = true ↔
    (∃ d, getPrefixBytes 4 t = some d ∧ eqIgnoreAsciiCase d "DSML".toList = true) ∨
      getPrefixBytes 4 t = none ∧ (toAsciiUppercase t).isPrefixOf "DSML".toList = true := by
  rw [startsDsml, Bool.or_eq_true]
  constructor
  · rintro (h | h)
    · have htake : toAsciiUppercase (t.take 4) = "DSML".toList := by
        rw [toAsciiUppercase, List.map_take]
        exact (List.prefix_iff_eq_take.mp (List.isPrefixOf_iff_prefix.mp h)).symm
      have hbegins := getPrefixBytes_of_upper htake (t.drop 4)
      rw [List.take_append_drop] at hbegins
      exact Or.inl ⟨_, hbegins, (eqIgnoreAsciiCase_dsml _).mpr htake⟩
    · have hbegins := List.isPrefixOf_iff_prefix.mp h
      have hlen : t.length ≤ 4 := by simpa [toAsciiUppercase] using hbegins.length_le
      rcases hlen.lt_or_eq with hlt | heq
      · have hbytes := byteLen_of_alphabetic (alphabetic_of_upper fun c hc => hbegins.subset hc)
        have hboundary : isCharBoundary 4 t ≠ true := fun hb => by
          have := le_byteLen_of_isCharBoundary hb
          omega
        exact Or.inr ⟨if_neg hboundary, h⟩
      · have hupper : toAsciiUppercase t = "DSML".toList :=
          hbegins.eq_of_length (by simpa [toAsciiUppercase] using heq)
        have hsome := getPrefixBytes_of_upper hupper []
        rw [List.append_nil] at hsome
        exact Or.inl ⟨t, hsome, (eqIgnoreAsciiCase_dsml t).mpr hupper⟩
  · rintro (⟨d, hd, hdsml⟩ | ⟨-, h⟩)
    · rw [getPrefixBytes] at hd
      split_ifs at hd
      obtain rfl := Option.some.inj hd
      have hupper := (eqIgnoreAsciiCase_dsml _).mp hdsml
      refine Or.inl (List.isPrefixOf_iff_prefix.mpr ⟨toAsciiUppercase (dropBytes 4 t), ?_⟩)
      rw [← hupper, toAsciiUppercase, toAsciiUppercase, ← List.map_append,
        takeBytes_append_dropBytes, toAsciiUppercase]
    · exact Or.inr h

/-- The recogniser passes exactly the heads without protocol. -/
theorem parseDsmlHead_eq_none (head : Text) :
    parseDsmlHead head = .ok none ↔ protocolHead head = false := by
  have hstarts := startsDsml_iff (behindBars head)
  simp only [parseDsmlHead, takeProtocolBars_eq, protocolHead, List.length_eq_zero_iff]
  by_cases hnil : leadingBars head = []
  · simp [hnil]
  have hbars : (leadingBars head).isEmpty = false := by simpa using hnil
  rw [if_neg hnil, hbars]
  by_cases hwrong : (decide (2 < (leadingBars head).length) || !sameBars (leadingBars head)) = true
  · rw [if_pos hwrong, hwrong]
    simp
  rw [if_neg hwrong, Bool.not_eq_true _ |>.mp hwrong]
  cases hbegins : getPrefixBytes 4 (behindBars head) with
  | none =>
    simp only [hbegins, reduceCtorEq, false_and, exists_false, false_or, true_and] at hstarts
    rw [Bool.eq_iff_iff.mpr hstarts]
    cases (toAsciiUppercase (behindBars head)).isPrefixOf "DSML".toList <;> simp
  | some d =>
    simp only [hbegins, Option.some.injEq, reduceCtorEq, false_and, or_false,
      exists_eq_left'] at hstarts
    rw [Bool.eq_iff_iff.mpr hstarts]
    dsimp only
    by_cases hd : eqIgnoreAsciiCase d "DSML".toList = true
    · rw [hd]
      constructor
      · intro h
        rw [Bool.not_true, if_neg Bool.false_ne_true] at h
        split_ifs at h <;> cases h
      · exact fun h => absurd h (by simp)
    · rw [Bool.not_eq_true _ |>.mp hd]
      exact ⟨fun _ => rfl, fun _ => rfl⟩

/-- Where a head ends. -/
def isHeadChar (c : Char) : Bool := !isWhitespace c && c != '>'

def skipSlash (t : Text) : Text := (stripPrefixChar '/' t).getD t

/-- The head that the recogniser reads behind a `<`: whitespace and one slash are skipped. -/
def tagHead (afterLt : Text) : Text :=
  (trimStart (skipSlash (trimStart afterLt))).takeWhile isHeadChar

section
variable {t w y : Text}

theorem exists_trimEnd (t : Text) : ∃ w, t = trimEnd t ++ w ∧ allWhitespace w = true := by
  refine ⟨(t.reverse.takeWhile isWhitespace).reverse, ?_, ?_⟩
  · rw [trimEnd, ← List.reverse_append, List.takeWhile_append_dropWhile, List.reverse_reverse]
  · rw [allWhitespace, List.all_eq_true]
    intro c hc
    exact List.mem_takeWhile_imp (List.mem_reverse.mp hc)

theorem skipSlash_append (hy : y.head? ≠ some '/') : skipSlash (t ++ y) = skipSlash t ++ y := by
  cases t with
  | nil =>
    cases y with
    | nil => rfl
    | cons c y =>
      have hc : c ≠ '/' := fun h => hy (by simp [h])
      simp [skipSlash, stripPrefixChar, hc]
  | cons c t => by_cases hc : c = '/' <;> simp [skipSlash, stripPrefixChar, hc]

theorem mem_of_mem_skipSlash {c : Char} (h : c ∈ skipSlash t) : c ∈ t := by
  cases t with
  | nil => exact h
  | cons d t =>
    by_cases hd : d = '/'
    · rw [skipSlash, stripPrefixChar, if_pos hd, Option.getD_some] at h
      exact List.mem_cons_of_mem d h
    · rwa [skipSlash, stripPrefixChar, if_neg hd, Option.getD_none] at h

theorem trimStart_trim (t : Text) : trimStart (trim t) = trim t := by
  obtain ⟨w, hsplit, -⟩ := exists_trimEnd (trimStart t)
  cases htrim : trim t with
  | nil => rfl
  | cons c rest =>
    have hcons : trimStart t = c :: (rest ++ w) := by
      rw [hsplit]
      exact congrArg (· ++ w) htrim
    apply trimStart_eq_self
    have := List.head_dropWhile_not isWhitespace (l := t)
      (by rw [show t.dropWhile isWhitespace = c :: (rest ++ w) from hcons]; exact List.cons_ne_nil _ _)
    simpa [show t.dropWhile isWhitespace = c :: (rest ++ w) from hcons] using this

theorem trimStart_append (hy : ∀ c, y.head? = some c → isWhitespace c = false) :
    trimStart (t ++ y) = trimStart t ++ y := by
  induction t with
  | nil =>
    cases y with
    | nil => rfl
    | cons c y => exact trimStart_eq_self (hy c rfl) y
  | cons c t ih =>
    by_cases hc : isWhitespace c = true
    · simpa [trimStart, hc] using ih
    · simp [trimStart, hc]

theorem takeWhile_isHeadChar_append (ht : '>' ∉ t) (hy : y = [] ∨ ∃ y', y = '>' :: y') :
    (t ++ y).takeWhile isHeadChar = t.takeWhile (!isWhitespace ·) := by
  induction t with
  | nil => rcases hy with rfl | ⟨y', rfl⟩ <;> rfl
  | cons c t ih =>
    rw [List.mem_cons, not_or] at ht
    have hc : isHeadChar c = !isWhitespace c := by
      simp [isHeadChar, Ne.symm ht.1]
    rw [List.cons_append, List.takeWhile_cons, List.takeWhile_cons, hc, ih ht.2]

theorem takeWhile_append_whitespace (hw : allWhitespace w = true) :
    (t ++ w).takeWhile (!isWhitespace ·) = t.takeWhile (!isWhitespace ·) := by
  induction t with
  | nil =>
    cases w with
    | nil => rfl
    | cons c w =>
      rw [allWhitespace, List.all_cons, Bool.and_eq_true] at hw
      simp [hw.1]
  | cons c t ih => rw [List.cons_append, List.takeWhile_cons, List.takeWhile_cons, ih]

theorem takeWhile_trimStart_append (hw : allWhitespace w = true) :
    (trimStart (t ++ w)).takeWhile (!isWhitespace ·) =
      (trimStart t).takeWhile (!isWhitespace ·) := by
  induction t with
  | nil =>
    have hnil : trimStart w = [] := List.dropWhile_eq_nil_iff.mpr (List.all_eq_true.mp hw)
    rw [List.nil_append, hnil]
    rfl
  | cons c t ih =>
    by_cases hc : isWhitespace c = true
    · simpa [trimStart, hc] using ih
    · rw [List.cons_append, trimStart_eq_self (by simpa using hc),
        trimStart_eq_self (by simpa using hc), ← List.cons_append, takeWhile_append_whitespace hw]

/-- Whitespace at the end of a tag does not change its head. -/
theorem takeWhile_skipSlash_trim (t : Text) :
    (trimStart (skipSlash (trim t))).takeWhile (!isWhitespace ·) =
      (trimStart (skipSlash (trimStart t))).takeWhile (!isWhitespace ·) := by
  obtain ⟨w, hsplit, hw⟩ := exists_trimEnd (trimStart t)
  have hslash : w.head? ≠ some '/' := by
    intro h
    have := List.all_eq_true.mp hw '/' (List.mem_of_mem_head? h)
    simp [isWhitespace] at this
  conv_rhs => rw [hsplit, skipSlash_append hslash, takeWhile_trimStart_append hw]
  rfl

/-- What stands behind the tag does not change its head. -/
theorem tagHead_append (ht : '>' ∉ t) (hy : y = [] ∨ ∃ y', y = '>' :: y') :
    tagHead (t ++ y) = (trimStart (skipSlash (trim t))).takeWhile (!isWhitespace ·) := by
  have hspace : ∀ c, y.head? = some c → isWhitespace c = false := by
    rcases hy with rfl | ⟨y', rfl⟩
    · intro c hc
      cases hc
    · intro c hc
      obtain rfl := Option.some.inj hc
      decide
  have hslash : y.head? ≠ some '/' := by
    rcases hy with rfl | ⟨y', rfl⟩ <;> simp
  have hfree : '>' ∉ trimStart (skipSlash (trimStart t)) := by
    intro hmem
    have hslash := mem_of_mem_skipSlash ((List.dropWhile_suffix isWhitespace).subset hmem)
    exact ht ((List.dropWhile_suffix isWhitespace).subset hslash)
  rw [tagHead, trimStart_append hspace, skipSlash_append hslash, trimStart_append hspace,
    takeWhile_isHeadChar_append hfree hy, takeWhile_skipSlash_trim]

end

/-- Without its guard the recogniser passes exactly the candidates whose head has no protocol. -/
theorem recogniseCandidateTag_eq_notDsml (afterLt : Text) :
    recogniseCandidateTag afterLt = .ok .notDsml ↔ protocolHead (tagHead afterLt) = false := by
  rw [← parseDsmlHead_eq_none, recogniseCandidateTag]
  by_cases hend : '>' ∈ afterLt
  · rw [if_neg (not_not.mpr hend)]
    obtain ⟨t, y, rfl, ht⟩ := List.eq_append_cons_of_mem hend
    rw [tagHead_append ht (Or.inr ⟨y, rfl⟩), takeWhile_ne_append ht]
    dsimp only
    have hinside : (match stripPrefixChar '/' (trim t) with
        | some rest => (true, trimStart rest)
        | none => (false, trim t)) =
        ((stripPrefixChar '/' (trim t)).isSome, trimStart (skipSlash (trim t))) := by
      cases hslash : stripPrefixChar '/' (trim t) with
      | none => simp [skipSlash, hslash, trimStart_trim]
      | some rest => simp [skipSlash, hslash]
    rw [hinside]
    dsimp only
    rcases parseDsmlHead ((trimStart (skipSlash (trim t))).takeWhile (!isWhitespace ·)) with
      e | _ | name
    · simp
    · simp
    · dsimp only
      rcases parseAttributes ((trimStart (skipSlash (trim t))).dropWhile (!isWhitespace ·)) with
        e | attrs
      · simp
      · dsimp only
        split_ifs <;> simp
  · have hhead := tagHead_append (y := []) hend (Or.inl rfl)
    rw [List.append_nil] at hhead
    rw [if_pos hend, hhead]
    dsimp only
    rw [show (stripPrefixChar '/' (trim afterLt)).getD (trim afterLt) = skipSlash (trim afterLt)
      from rfl]
    rcases parseDsmlHead ((trimStart (skipSlash (trim afterLt))).takeWhile (!isWhitespace ·)) with
      e | _ | name <;> simp

/-- The first letters behind the bars. -/
def lettersBehind (text : Text) : Text :=
  toAsciiUppercase (((behindBars text).takeWhile isAsciiAlphabetic).take 4)

theorem hasDsmlCandidatePrefix_eq (afterLt : Text) : hasDsmlCandidatePrefix afterLt =
    (!(leadingBars (skipSlash afterLt)).isEmpty &&
      (decide (2 < (leadingBars (skipSlash afterLt)).length) ||
        (lettersBehind (skipSlash afterLt)).isPrefixOf "DSML".toList)) := by
  have hletters : ∀ probe : Text, (probe.isPrefixOf "DSML".toList || probe == "DSML".toList) =
      probe.isPrefixOf "DSML".toList := by
    intro probe
    by_cases h : probe = "DSML".toList
    · rw [h]
      rfl
    · rw [beq_eq_false_iff_ne.mpr h, Bool.or_false]
  simp only [hasDsmlCandidatePrefix, takeProtocolBars_eq, hletters]
  rw [show (stripPrefixChar '/' afterLt).getD afterLt = skipSlash afterLt from rfl]
  cases hbars : leadingBars (skipSlash afterLt) with
  | nil => rfl
  | cons c bars =>
    have hne : (c :: bars).length ≠ 0 := Nat.succ_ne_zero _
    rw [if_neg hne]
    by_cases htwo : 2 < (c :: bars).length
    · rw [if_pos htwo, decide_eq_true htwo]
      rfl
    · rw [if_neg htwo, decide_eq_false htwo]
      rfl

/-- When protocol letters start in the head, the guard sees them too. -/
theorem lettersBehind_of_startsDsml {u : Text} (h : startsDsml (u.takeWhile isHeadChar) = true) :
    (toAsciiUppercase ((u.takeWhile isAsciiAlphabetic).take 4)).isPrefixOf "DSML".toList = true := by
  rw [startsDsml, Bool.or_eq_true] at h
  have hsplit : u = u.takeWhile isHeadChar ++ u.dropWhile isHeadChar :=
    List.takeWhile_append_dropWhile.symm
  rcases h with h | h
  · have htake : toAsciiUppercase ((u.takeWhile isHeadChar).take 4) = "DSML".toList := by
      rw [toAsciiUppercase, List.map_take]
      exact (List.prefix_iff_eq_take.mp (List.isPrefixOf_iff_prefix.mp h)).symm
    generalize hd : (u.takeWhile isHeadChar).take 4 = d at htake
    have hlen : d.length = 4 := by simpa [toAsciiUppercase] using congrArg List.length htake
    have hu : u = d ++ ((u.takeWhile isHeadChar).drop 4 ++ u.dropWhile isHeadChar) := by
      rw [← List.append_assoc, ← hd, List.take_append_drop, ← hsplit]
    rw [hu, List.takeWhile_append_of_pos (alphabetic_of_upper fun c hc => htake ▸ hc),
      List.take_left' hlen, htake]
    rfl
  · have hbegins := List.isPrefixOf_iff_prefix.mp h
    have hlen : (u.takeWhile isHeadChar).length ≤ 4 := by
      simpa [toAsciiUppercase] using hbegins.length_le
    have hstop : (u.dropWhile isHeadChar).takeWhile isAsciiAlphabetic = [] := by
      cases hdrop : u.dropWhile isHeadChar with
      | nil => rfl
      | cons c rest =>
        have hc := List.head_dropWhile_not isHeadChar (l := u)
          (by rw [hdrop]; exact List.cons_ne_nil c rest)
        simp only [hdrop, List.head_cons] at hc
        have halpha : isAsciiAlphabetic c ≠ true := by
          intro halpha
          have hword : isTagWordChar c = true := by simp [isTagWordChar, halpha]
          simp [isHeadChar, not_isWhitespace_of_isTagWordChar hword,
            isTagWordChar_ne hword (d := '>')] at hc
        rw [List.takeWhile_cons_of_neg halpha]
    conv_lhs => rw [hsplit]
    rw [List.takeWhile_append_of_pos (alphabetic_of_upper fun c hc => hbegins.subset hc), hstop,
      List.append_nil, List.take_of_length_le hlen]
    exact h

/-- Whitespace stands behind the `<`, or behind the slash after it. -/
def spaceInFront (afterLt : Text) : Bool := ((skipSlash afterLt).head?.map isWhitespace).getD false

/-- The candidates that the guard passes as ordinary text though the recogniser does not: protocol
behind whitespace, and two different bars in front of other letters. -/
def overlooked (afterLt : Text) : Bool :=
  if spaceInFront afterLt then protocolHead (tagHead afterLt)
  else decide ((leadingBars (skipSlash afterLt)).length = 2) &&
    !sameBars (leadingBars (skipSlash afterLt)) &&
    !(lettersBehind (skipSlash afterLt)).isPrefixOf "DSML".toList

theorem sameBars_of_length_le_one {bars : Text} (h : bars.length ≤ 1) : sameBars bars = true := by
  match bars, h with
  | [], _ => rfl
  | [c], _ => simp [sameBars]

theorem isHeadChar_of_isProtocolBar {c : Char} (h : isProtocolBar c = true) :
    isHeadChar c = true := by
  simp [isHeadChar, not_isWhitespace_of_isProtocolBar h, isProtocolBar_ne h (d := '>')]

/-- The bars of a text are bars of its head. -/
theorem bars_takeWhile (t : Text) : leadingBars (t.takeWhile isHeadChar) = leadingBars t ∧
    behindBars (t.takeWhile isHeadChar) = (behindBars t).takeWhile isHeadChar := by
  induction t with
  | nil => exact ⟨rfl, rfl⟩
  | cons c t ih =>
    by_cases hbar : isProtocolBar c = true
    · rw [List.takeWhile_cons_of_pos (isHeadChar_of_isProtocolBar hbar)]
      simp only [leadingBars, behindBars, List.takeWhile_cons_of_pos, List.dropWhile_cons_of_pos,
        hbar] at ih ⊢
      exact ⟨by rw [ih.1], ih.2⟩
    · by_cases hhead : isHeadChar c = true
      · simp [leadingBars, behindBars, hbar, hhead]
      · simp [leadingBars, behindBars, hbar, hhead]

theorem leadingBars_of_spaceInFront {afterLt : Text} (h : spaceInFront afterLt = true) :
    leadingBars (skipSlash afterLt) = [] := by
  rw [spaceInFront] at h
  cases hskip : skipSlash afterLt with
  | nil => rfl
  | cons c rest =>
    rw [hskip] at h
    have hbar : isProtocolBar c ≠ true := by
      intro hbar
      rw [show ((c :: rest).head?.map isWhitespace).getD false = isWhitespace c from rfl,
        not_isWhitespace_of_isProtocolBar hbar] at h
      cases h
    exact List.takeWhile_cons_of_neg hbar

theorem trimStart_of_head {t : Text} (h : (t.head?.map isWhitespace).getD false = false) :
    trimStart t = t := by
  cases t with
  | nil => rfl
  | cons c t => exact trimStart_eq_self h t

theorem tagHead_of_not_spaceInFront {afterLt : Text} (h : spaceInFront afterLt = false) :
    tagHead afterLt = (skipSlash afterLt).takeWhile isHeadChar := by
  have hfront : trimStart afterLt = afterLt := by
    apply trimStart_of_head
    cases afterLt with
    | nil => rfl
    | cons c rest =>
      by_cases hc : c = '/'
      · subst hc
        rfl
      · simpa [spaceInFront, skipSlash, stripPrefixChar, hc] using h
  rw [tagHead, hfront, trimStart_of_head h]

/-- The guard is a shortcut exactly where nothing is overlooked. -/
theorem candidatePrefix_shortcut_iff (afterLt : Text) :
    (hasDsmlCandidatePrefix afterLt = false → recogniseCandidateTag afterLt = .ok .notDsml) ↔
      overlooked afterLt = false := by
  rw [recogniseCandidateTag_eq_notDsml, hasDsmlCandidatePrefix_eq, overlooked]
  cases hspace : spaceInFront afterLt with
  | true =>
    rw [leadingBars_of_spaceInFront hspace, if_pos rfl]
    simp
  | false =>
    rw [if_neg Bool.false_ne_true, tagHead_of_not_spaceInFront hspace, protocolHead,
      (bars_takeWhile _).1, (bars_takeWhile _).2]
    have hletters := lettersBehind_of_startsDsml (u := behindBars (skipSlash afterLt))
    rw [← lettersBehind] at hletters
    have hsame : (leadingBars (skipSlash afterLt)).length ≤ 1 → _ := sameBars_of_length_le_one
    have hnil : (leadingBars (skipSlash afterLt)).isEmpty = true ↔
        (leadingBars (skipSlash afterLt)).length = 0 := by
      rw [List.isEmpty_iff, List.length_eq_zero_iff]
    revert hletters hsame hnil
    generalize (lettersBehind (skipSlash afterLt)).isPrefixOf "DSML".toList = letters
    generalize startsDsml ((behindBars (skipSlash afterLt)).takeWhile isHeadChar) = starts
    generalize sameBars (leadingBars (skipSlash afterLt)) = same
    generalize (leadingBars (skipSlash afterLt)).isEmpty = empty
    generalize (leadingBars (skipSlash afterLt)).length = n
    intro hletters hsame hnil
    rcases Nat.lt_or_ge 2 n with hn | hn
    · have hne : empty = false := by
        cases empty with
        | false => rfl
        | true => have := hnil.mp rfl; omega
      simp [hne, hn, hn.ne']
    · have htwo : decide (2 < n) = false := by simpa using hn
      rcases hn.lt_or_eq with hn | rfl
      · rw [hsame (by omega), decide_eq_false hn.ne, htwo]
        cases empty <;> cases letters <;> cases starts <;> simp_all
      · cases empty <;> cases letters <;> cases starts <;> cases same <;> simp_all

theorem space_hides_protocol :
    ¬∀ afterLt : Text, hasDsmlCandidatePrefix afterLt = false →
      recogniseCandidateTag afterLt = .ok .notDsml := by
  intro h
  have hopen := h " |DSML|tool_calls>".toList (by decide +kernel)
  revert hopen
  decide +kernel

end DeepseekScience.Dsml
