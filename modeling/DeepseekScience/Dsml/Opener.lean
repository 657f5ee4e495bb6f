import DeepseekScience.Dsml.Parser

/-! An opener that stands alone at the top of a turn: blank lines, at most three spaces, and
then the first raw `<`. No Markdown rule can hide it, whatever the text behind it looks
like, and the visible scan decides on it. -/
namespace DeepseekScience.Dsml

/-- A character that a line of leading whitespace, or the opener behind it, starts with once
the indentation is passed. -/
def isLeadContent (c : Char) : Bool := c == '<' || (isWhitespace c && c != ' ' && c != '\t')

theorem isLeadContent_ne {c d : Char} (h : isLeadContent c = true)
    (hd : isLeadContent d = false := by decide) : c ≠ d := by
  rintro rfl
  rw [h] at hd
  cases hd

theorem not_isAsciiDigit_of_isLeadContent {c : Char} (h : isLeadContent c = true) :
    isAsciiDigit c = false := by
  by_contra hd
  rw [Bool.not_eq_false, isAsciiDigit, Char.isDigit, Bool.and_eq_true, decide_eq_true_eq,
    decide_eq_true_eq] at hd
  have h48 : 48 ≤ c.toNat := hd.1
  have h57 : c.toNat ≤ 57 := hd.2
  have hlt : c ≠ '<' := by
    rintro rfl
    simp at h57
  simp only [isLeadContent, hlt, isWhitespace, Bool.or_eq_true, Bool.and_eq_true, beq_iff_eq,
    decide_eq_true_eq, false_or] at h
  omega

/-- Behind its indentation every line of the lead starts with such a character. -/
theorem exists_leadContent {ws : Text} (h : allWhitespace ws = true) (behind : Text) :
    ∃ pad c rest, ws ++ '<' :: behind = pad ++ c :: rest ∧
      (∀ d ∈ pad, d = ' ' ∨ d = '\t') ∧ isLeadContent c = true := by
  induction ws with
  | nil => exact ⟨[], '<', behind, rfl, by simp, by decide⟩
  | cons d ws ih =>
    simp only [allWhitespace, List.all_cons, Bool.and_eq_true] at h
    by_cases hd : d = ' ' ∨ d = '\t'
    · obtain ⟨pad, c, rest, he, hpad, hc⟩ := ih h.2
      exact ⟨d :: pad, c, rest, by rw [List.cons_append, he, List.cons_append],
        by simpa [hd] using hpad, hc⟩
    · rw [not_or] at hd
      exact ⟨[], d, ws ++ '<' :: behind, rfl, by simp, by simp [isLeadContent, h.1, hd.1, hd.2]⟩

theorem markdownIndentFrom_content {pad : Text} (hpad : ∀ d ∈ pad, d = ' ' ∨ d = '\t')
    {c : Char} (hc : isLeadContent c = true) (rest : Text) (columns cursor : ℕ) :
    ∃ n, markdownIndentFrom (pad ++ c :: rest) columns cursor = (n, cursor + pad.length) := by
  induction pad generalizing columns cursor with
  | nil =>
    refine ⟨columns, ?_⟩
    simp [markdownIndentFrom, isLeadContent_ne hc (d := ' '), isLeadContent_ne hc (d := '\t')]
  | cons d pad ih =>
    have hrest : ∀ e ∈ pad, e = ' ' ∨ e = '\t' := fun e he => hpad e (List.mem_cons_of_mem d he)
    rcases hpad d List.mem_cons_self with rfl | rfl
    · obtain ⟨n, hn⟩ := ih hrest (columns + 1) (cursor + 1)
      exact ⟨n, by simp [markdownIndentFrom, hn]; omega⟩
    · obtain ⟨n, hn⟩ := ih hrest (columns + (4 - columns % 4)) (cursor + 1)
      exact ⟨n, by simp [markdownIndentFrom, hn]; omega⟩

theorem markdownIndentFrom_spaces (n : ℕ) (rest : Text) (columns cursor : ℕ) :
    markdownIndentFrom (List.replicate n ' ' ++ '<' :: rest) columns cursor =
      (columns + n, cursor + n) := by
  induction n generalizing columns cursor with
  | zero => rfl
  | succ n ih =>
    rw [List.replicate_succ, List.cons_append, markdownIndentFrom, if_pos rfl, ih]
    simp only [Prod.mk.injEq]
    omega

section
variable {text pad rest : Text} {c : Char} {start : ℕ}

theorem le_lineEnd_of_content (htext : text.drop start = pad ++ c :: rest)
    (hpad : ∀ d ∈ pad, d = ' ' ∨ d = '\t') : start + pad.length ≤ lineEnd text start := by
  have hline : ∀ d ∈ pad, (d != '\n') = true := by
    intro d hd
    rcases hpad d hd with rfl | rfl <;> decide
  rw [lineEnd, htext, List.takeWhile_append_of_pos hline, List.length_append]
  omega

theorem getElem?_content (htext : text.drop start = pad ++ c :: rest) :
    text[start + pad.length]? = some c := by
  rw [← List.getElem?_drop, htext]
  simp

theorem drop_content (htext : text.drop start = pad ++ c :: rest) :
    text.drop (start + pad.length) = c :: rest := by
  rw [← List.drop_drop, htext, List.drop_left]

/-- A line of the lead is in no block quote. -/
theorem markdownBlockquotePrefix_content (htext : text.drop start = pad ++ c :: rest)
    (hpad : ∀ d ∈ pad, d = ' ' ∨ d = '\t') (hc : isLeadContent c = true) :
    markdownBlockquotePrefix text start (lineEnd text start) =
      (0, (markdownIndent text start).1, start + pad.length) := by
  obtain ⟨n, hn⟩ := markdownIndentFrom_content hpad hc rest 0 start
  have hle := le_lineEnd_of_content htext hpad
  simp [markdownBlockquotePrefix, markdownBlockquotePrefixFrom, markdownIndent, htext, hn,
    getElem?_content htext, isLeadContent_ne hc (d := '>'), hle]

theorem listMarker_content (htext : text.drop start = c :: rest) (hc : isLeadContent c = true)
    (stop : ℕ) : listMarker text start stop = none := by
  have hdigits : ((slice text start (min stop (start + 9))).takeWhile isAsciiDigit).length = 0 := by
    rw [slice, List.drop_take, htext]
    cases min stop (start + 9) - start with
    | zero => simp
    | succ n => simp [not_isAsciiDigit_of_isLeadContent hc]
  simp [listMarker, getElem?_of_drop_eq_cons htext, isLeadContent_ne hc (d := '-'),
    isLeadContent_ne hc (d := '+'), isLeadContent_ne hc (d := '*'), hdigits]

theorem fenceRunAt_content (htext : text.drop start = c :: rest) (hc : isLeadContent c = true) :
    fenceRunAt text start = none := by
  simp [fenceRunAt, htext, isLeadContent_ne hc (d := '`'), isLeadContent_ne hc (d := '~')]

end

/-- No fence opens on a line of the lead. -/
theorem fenceOpeningAtLine_lead {text ws behind : Text} {start : ℕ}
    (htext : text.drop start = ws ++ '<' :: behind) (hws : allWhitespace ws = true) :
    fenceOpeningAtLine text start (lineEnd text start) = none := by
  obtain ⟨pad, c, rest, he, hpad, hc⟩ := exists_leadContent hws behind
  rw [he] at htext
  have hdrop := drop_content htext
  simp only [fenceOpeningAtLine, markdownBlockquotePrefix_content htext hpad hc,
    listMarker_content hdrop hc, fenceRunAt_content hdrop hc, ite_self]

/-- The turn `text` is whole blank lines `lead`, then `indent` spaces, then a raw `<`. -/
structure StandsAlone (text lead : Text) (indent : ℕ) (behind : Text) : Prop where
  eq : text = lead ++ (List.replicate indent ' ' ++ '<' :: behind)
  blank : allWhitespace lead = true
  lines : lead = [] ∨ lead.getLast? = some '\n'
  indent_le : indent ≤ 3

namespace StandsAlone
variable {text lead behind : Text} {indent : ℕ}

/-- From every position up to the opener the text goes on with whitespace and the opener. -/
theorem drop_eq (h : StandsAlone text lead indent behind) {position : ℕ}
    (hle : position ≤ lead.length + indent) :
    ∃ ws, text.drop position = ws ++ '<' :: behind ∧ allWhitespace ws = true ∧
      position + ws.length = lead.length + indent := by
  have hspaces : allWhitespace (lead ++ List.replicate indent ' ') = true := by
    rw [allWhitespace_append, h.blank, Bool.true_and, allWhitespace, List.all_replicate,
      isWhitespace_space]
    simp
  refine ⟨(lead ++ List.replicate indent ' ').drop position, ?_, ?_, ?_⟩
  · rw [h.eq, ← List.append_assoc, List.drop_append_of_le_length (by simpa using hle)]
  · exact List.all_eq_true.mpr fun c hc =>
      List.all_eq_true.mp hspaces c (List.mem_of_mem_drop hc)
  · simp only [List.length_drop, List.length_append, List.length_replicate]
    omega

theorem drop_lead (h : StandsAlone text lead indent behind) :
    text.drop lead.length = List.replicate indent ' ' ++ '<' :: behind := by
  rw [h.eq, List.drop_left]

theorem fenceOpeningAtLine (h : StandsAlone text lead indent behind) {position : ℕ}
    (hle : position ≤ lead.length + indent) :
    fenceOpeningAtLine text position (lineEnd text position) = none := by
  obtain ⟨ws, hws, hblank, -⟩ := h.drop_eq hle
  exact fenceOpeningAtLine_lead hws hblank

/-- A line of the lead ends before the line of the opener starts. -/
theorem nextLine_le (h : StandsAlone text lead indent behind) {position : ℕ}
    (hlt : position < lead.length) : nextLine text position ≤ lead.length := by
  rcases h.lines with rfl | hlast
  · simp at hlt
  · obtain ⟨lines, rfl⟩ := List.getLast?_eq_some_iff.mp hlast
    simp only [List.length_append, List.length_singleton] at hlt ⊢
    have hdrop : text.drop position =
        lines.drop position ++ '\n' :: (List.replicate indent ' ' ++ '<' :: behind) := by
      rw [h.eq, List.append_assoc, List.drop_append_of_le_length (by omega), List.singleton_append]
    have hend := length_takeWhile_append_le (p := (· != '\n')) (c := '\n') rfl
      (lines.drop position) (List.replicate indent ' ' ++ '<' :: behind)
    rw [List.length_drop] at hend
    simp only [nextLine, lineEnd, hdrop]
    split_ifs <;> omega

theorem lt_lineEnd (h : StandsAlone text lead indent behind) :
    lead.length + indent < lineEnd text lead.length := by
  have hspaces : ∀ c ∈ List.replicate indent ' ', (c != '\n') = true := by
    intro c hc
    rw [List.eq_of_mem_replicate hc]
    rfl
  rw [lineEnd, h.drop_lead, List.takeWhile_append_of_pos hspaces,
    List.takeWhile_cons_of_pos (by rfl)]
  simp only [List.length_append, List.length_replicate, List.length_cons]
  omega

/-- The line of the opener ends behind it. -/
theorem lt_nextLine (h : StandsAlone text lead indent behind) :
    lead.length + indent < nextLine text lead.length := by
  have := h.lt_lineEnd
  simp only [nextLine]
  split_ifs <;> omega

/-- The line of the opener is neither indented code nor blank. -/
theorem lineView_opener (h : StandsAlone text lead indent behind) :
    (lineView text lead.length).indentColumns ≤ 3 ∧
      (lineView text lead.length).logicalBlank = false := by
  have hlead₀ := markdownBlockquotePrefix_content h.drop_lead (by simp) (by decide)
  have hcolumns : markdownIndent text lead.length = (0 + indent, lead.length + indent) := by
    rw [markdownIndent, h.drop_lead, markdownIndentFrom_spaces]
  have hslice : slice text (lead.length + indent) (lineEnd text lead.length) =
      '<' :: behind.take (lineEnd text lead.length - (lead.length + indent) - 1) := by
    have hpos : 0 < lineEnd text lead.length - (lead.length + indent) := by
      have := h.lt_lineEnd
      omega
    rw [slice, List.drop_take, ← List.drop_drop, h.drop_lead]
    obtain ⟨n, hn⟩ := Nat.exists_eq_succ_of_ne_zero hpos.ne'
    simp [hn]
  simp only [lineView, hlead₀, hcolumns, List.length_replicate, hslice, trim_isEmpty]
  exact ⟨by have := h.indent_le; omega, by simp [allWhitespace]⟩

end StandsAlone

/-- A range that does not cover the opener: before its line, or behind it. -/
def ClearOf (lineStart opener : ℕ) (range : ℕ × ℕ) : Prop :=
  range.2 ≤ lineStart ∨ opener < range.1

theorem blockLine_start (text : Text) {opener cursor : ℕ} (hcursor : opener < cursor)
    (line : LineView) (s : BlockState) :
    (∀ range ∈ (blockLine text cursor line s).1, opener < range.1) ∧
      ∀ fence ∈ (blockLine text cursor line s).2.activeFence, opener < fence.opening := by
  unfold blockLine
  split
  · simpa using hcursor
  · split_ifs <;> simp [hcursor]

theorem blockStep_start (text : Text) {opener cursor : ℕ} {s : BlockState}
    (hcursor : opener < cursor) (hfence : ∀ fence ∈ s.activeFence, opener < fence.opening) :
    (∀ range ∈ (blockStep text cursor s).1, opener < range.1) ∧
      ∀ fence ∈ (blockStep text cursor s).2.activeFence, opener < fence.opening := by
  have hline := blockLine_start text hcursor (lineView text cursor) s
  simp only [blockStep]
  split
  · exact hline
  · rename_i fence hs
    split_ifs
    · exact hline
    · simpa using hfence fence hs
    · exact ⟨by simp, hfence⟩

/-- From a line behind the opener on, every completed range starts behind the opener. -/
theorem lt_start_of_mem_ranges {text : Text} {opener : ℕ} {rest : Text} {position cursor : ℕ}
    {s : BlockState} (hcursor : opener < cursor)
    (hfence : ∀ fence ∈ s.activeFence, opener < fence.opening) :
    ∀ range ∈ completeMarkdownBlockRangesFrom text rest position cursor s, opener < range.1 := by
  induction rest generalizing position cursor s with
  | nil => simp [completeMarkdownBlockRangesFrom]
  | cons c rest ih =>
    rw [completeMarkdownBlockRangesFrom]
    split_ifs with hlt
    · exact ih hcursor hfence
    · have hposition : opener < position := by omega
      have hstep := blockStep_start text hposition hfence
      have hnext : opener < nextLine text position :=
        lt_of_lt_of_le (by omega) (le_nextLine text position)
      intro range hmem
      rcases List.mem_append.mp hmem with hr | hr
      · exact hstep.1 range hr
      · exact ih hnext hstep.2 range hr

theorem pendingRanges_subset {ranges : List (ℕ × ℕ)} {cursor : ℕ} {range : ℕ × ℕ}
    (h : range ∈ pendingRanges ranges cursor) : range ∈ ranges :=
  (List.dropWhile_suffix _).subset h

theorem lt_of_pendingRanges_eq_cons {ranges later : List (ℕ × ℕ)} {range : ℕ × ℕ} {cursor : ℕ}
    (h : pendingRanges ranges cursor = range :: later) : cursor < range.2 := by
  have hne : pendingRanges ranges cursor ≠ [] := by simp [h]
  have hhead := List.head_dropWhile_not (fun r : ℕ × ℕ => decide (r.2 ≤ cursor)) hne
  simp only [pendingRanges] at h
  simpa [h] using hhead

/-- A blank line opens no raw HTML block. -/
theorem rawHtmlBlockOpener_blank {line : Text} (h : allWhitespace line = true) :
    rawHtmlBlockOpener line = none := by
  have hlt : ∀ n, '<' ∉ line.drop n := fun n hm =>
    lt_notMem_of_allWhitespace h (List.mem_of_mem_drop hm)
  have hlead₀ : ∀ n pattern, ('<' :: pattern).isPrefixOf (line.drop n) = false := by
    intro n pattern
    by_contra hp
    rw [Bool.not_eq_false, List.isPrefixOf_iff_prefix] at hp
    exact hlt n (hp.subset List.mem_cons_self)
  have hhead : ∀ n, htmlTagHead (line.drop n) = none := by
    intro n
    unfold htmlTagHead
    split
    · rename_i rest heq
      exact absurd (heq ▸ List.mem_cons_self) (hlt n)
    · rfl
  simp only [rawHtmlBlockOpener, show "<!--".toList = '<' :: "!--".toList from rfl,
    show "<?".toList = '<' :: "?".toList from rfl,
    show "<![CDATA[".toList = '<' :: "![CDATA[".toList from rfl,
    show "<!".toList = '<' :: "!".toList from rfl, hlead₀, hhead, Bool.false_and,
    Bool.false_eq_true, if_false, ite_self]

namespace StandsAlone
variable {text lead behind : Text} {indent : ℕ}

/-- The lines up to the opener complete only ranges in front of it. -/
theorem blockStep_clear (h : StandsAlone text lead indent behind) {position : ℕ}
    (hle : position ≤ lead.length) {s : BlockState} (hs : s.activeFence = none) :
    (∀ range ∈ (blockStep text position s).1, range.2 ≤ lead.length) ∧
      (blockStep text position s).2.activeFence = none := by
  have hline : position ≤ lead.length + indent := by omega
  have hopen := h.fenceOpeningAtLine hline
  simp only [blockStep, hs, blockLine]
  rw [show (lineView text position).stop = lineEnd text position from rfl, hopen]
  rcases Nat.lt_or_eq_of_le hle with hlt | rfl
  · have hnext := h.nextLine_le hlt
    simp only
    split_ifs <;> simp [hnext]
  · obtain ⟨hindent, hblank⟩ := h.lineView_opener
    have hcode : ¬ 4 ≤ (lineView text lead.length).indentColumns := by omega
    simp [hblank, hcode]

/-- No protected range covers the opener. -/
theorem ranges_clear (h : StandsAlone text lead indent behind) :
    ∀ range ∈ completeMarkdownBlockRanges text,
      ClearOf lead.length (lead.length + indent) range := by
  suffices hall : ∀ rest position cursor s, text.drop position = rest →
      s.activeFence = none → position ≤ cursor → cursor ≤ lead.length →
      ∀ range ∈ completeMarkdownBlockRangesFrom text rest position cursor s,
        ClearOf lead.length (lead.length + indent) range from
    hall text 0 0 _ rfl rfl le_rfl (Nat.zero_le _)
  intro rest
  induction rest with
  | nil => simp [completeMarkdownBlockRangesFrom]
  | cons c rest ih =>
    intro position cursor s htext hs hle hcursor
    have hdrop := drop_succ_of_drop_eq_cons htext
    rw [completeMarkdownBlockRangesFrom]
    split_ifs with hlt
    · exact ih _ _ _ hdrop hs hlt hcursor
    · obtain rfl : position = cursor := by omega
      obtain ⟨hranges, hfence⟩ := h.blockStep_clear hcursor hs
      intro range hmem
      rcases List.mem_append.mp hmem with hr | hr
      · exact Or.inl (hranges range hr)
      · rcases Nat.lt_or_eq_of_le hcursor with hlt | rfl
        · have hnext := h.nextLine_le hlt
          have hgt := lt_nextLine_of_lt (lt_length_of_drop_eq_cons htext)
          exact ih _ _ _ hdrop hfence (by omega) hnext range hr
        · exact Or.inr (lt_start_of_mem_ranges h.lt_nextLine (by simp [hfence]) range hr)

/-- The visible scan reports the tag at the opener. -/
theorem findNextVisibleDsmlTag_opener (h : StandsAlone text lead indent behind) {tag : DsmlTag}
    {after : Text} (htag : parseCandidateTag behind = .ok (.dsml tag))
    (hend : findTagEnd behind = .ok after) :
    findNextVisibleDsmlTag text 0 = .ok (some ⟨lead.length + indent,
      lead.length + indent + 1 + (behind.length - after.length), tag⟩) := by
  suffices hall : ∀ backticks rest position cursor ranges, text.drop position = rest →
      position ≤ lead.length + indent → cursor ≤ lead.length + indent →
      (∀ range ∈ ranges, ClearOf lead.length (lead.length + indent) range) →
      findNextVisibleFrom text backticks rest position cursor ranges =
        .ok (some ⟨lead.length + indent,
          lead.length + indent + 1 + (behind.length - after.length), tag⟩) from
    hall _ text 0 0 _ rfl (Nat.zero_le _) (Nat.zero_le _) fun range hr =>
      h.ranges_clear range (pendingRanges_subset hr)
  intro backticks rest
  induction rest with
  | nil =>
    intro position cursor ranges htext hle
    obtain ⟨ws, hws, -⟩ := h.drop_eq hle
    simp [htext] at hws
  | cons c rest ih =>
    intro position cursor ranges htext hle hcursor hclear
    obtain ⟨ws, hws, hblank, hlen⟩ := h.drop_eq hle
    rw [htext] at hws
    have hdrop := drop_succ_of_drop_eq_cons htext
    have hvisit : ∀ later, (∀ range ∈ later, ClearOf lead.length (lead.length + indent) range) →
        findNextVisibleFrom.visit text backticks c rest position later =
          .ok (some ⟨lead.length + indent,
            lead.length + indent + 1 + (behind.length - after.length), tag⟩) := by
      intro later hlater
      simp only [findNextVisibleFrom.visit, h.fenceOpeningAtLine hle, ite_self]
      cases ws with
      | nil =>
        obtain ⟨rfl, rfl⟩ : c = '<' ∧ rest = behind := by simpa using hws
        simp only [List.length_nil, Nat.add_zero] at hlen
        simp [htag, hend, Except.map, hlen]
      | cons d ws =>
        obtain ⟨rfl, -⟩ : c = d ∧ rest = ws ++ '<' :: behind := by simpa using hws
        simp only [allWhitespace, List.all_cons, Bool.and_eq_true] at hblank
        have hlt : c ≠ '<' := by
          rintro rfl
          simp at hblank
        have htick : c ≠ '`' := by
          rintro rfl
          exact absurd hblank.1 (by decide)
        simp only [List.length_cons] at hlen
        rw [if_neg htick, if_neg hlt]
        exact ih _ _ _ hdrop (by omega) (by omega) hlater
    rw [findNextVisibleFrom]
    split_ifs with hlt
    · exact ih _ _ _ hdrop (by omega) hcursor hclear
    · split
      · exact hvisit [] (by simp)
      · rename_i start stop later hpending
        have hhead : ∀ range ∈ (start, stop) :: later,
            ClearOf lead.length (lead.length + indent) range := fun range hr =>
          hclear range (pendingRanges_subset (hpending ▸ hr))
        split_ifs with hstart
        · have hpos := lt_of_pendingRanges_eq_cons hpending
          rcases hhead (start, stop) List.mem_cons_self with hstop | hstop
          · simp only at hstop hpos
            exact ih _ _ _ hdrop (by omega) (by omega) fun range hr =>
              hhead range (List.mem_cons_of_mem _ hr)
          · simp only at hstop
            omega
        · exact hvisit _ hhead

theorem lineStartOf_opener (h : StandsAlone text lead indent behind) :
    lineStartOf text (lead.length + indent) = lead.length := by
  have htake : text.take (lead.length + indent) = lead ++ List.replicate indent ' ' := by
    rw [h.eq, ← List.append_assoc, List.take_left' (by simp)]
  have hspaces : ∀ c ∈ List.replicate indent ' ', (c != '\n') = true := by
    intro c hc
    rw [List.eq_of_mem_replicate hc]
    rfl
  have hlead : lead.reverse.takeWhile (· != '\n') = [] := by
    rcases h.lines with rfl | hlast
    · rfl
    · obtain ⟨lines, rfl⟩ := List.getLast?_eq_some_iff.mp hlast
      simp
  rw [lineStartOf, htake, List.reverse_append, List.reverse_replicate,
    List.takeWhile_append_of_pos hspaces, hlead]
  simp

theorem not_isInsideCommonmarkRawHtmlBlock (h : StandsAlone text lead indent behind) :
    isInsideCommonmarkRawHtmlBlock text (lead.length + indent) = false := by
  suffices hall : ∀ rest position cursor,
      rawHtmlScanFrom text lead.length rest position cursor none = none by
    rw [isInsideCommonmarkRawHtmlBlock, h.lineStartOf_opener, hall]
    rfl
  intro rest
  induction rest with
  | nil => intros; rfl
  | cons c rest ih =>
    intro position cursor
    rw [rawHtmlScanFrom]
    split_ifs with hlt hle
    · exact ih _ _
    · rfl
    · have hblank : allWhitespace
          (slice text position (min (lineEnd text position) (lead.length - 1))) = true := by
        refine List.all_eq_true.mpr fun d hd => ?_
        have hmem : d ∈ lead := by
          have := List.mem_of_mem_drop hd
          rw [h.eq, List.take_append_of_le_length (by omega)] at this
          exact List.mem_of_mem_take this
        exact List.all_eq_true.mp h.blank d hmem
      simp only [rawHtmlStep, rawHtmlBlockOpener_blank hblank]
      exact ih _ _

theorem not_hasAbandonedContainerFenceBefore (h : StandsAlone text lead indent behind) :
    hasAbandonedContainerFenceBefore text (lead.length + indent) = false := by
  suffices hall : ∀ rest position cursor ranges,
      hasAbandonedContainerFenceFrom text (lead.length + indent) rest position cursor ranges none =
        false from hall _ _ _ _
  intro rest
  induction rest with
  | nil => simp [hasAbandonedContainerFenceFrom]
  | cons c rest ih =>
    intro position cursor ranges
    rw [hasAbandonedContainerFenceFrom]
    split_ifs with hlt hbehind
    · exact ih _ _ _
    · rfl
    · have hstep : containerFenceStep text position none = some none := by
        have hline : position ≤ lead.length + indent := by omega
        have hopen := h.fenceOpeningAtLine hline
        rw [containerFenceStep,
          show (lineView text position).stop = lineEnd text position from rfl, hopen]
      have hvisit : ∀ later, hasAbandonedContainerFenceFrom.visit text (lead.length + indent)
          rest position later none = false := by
        intro later
        rw [hasAbandonedContainerFenceFrom.visit, hstep]
        exact ih _ _ _
      split
      · exact hvisit []
      · split_ifs
        · exact ih _ _ _
        · exact hvisit _

/-- An opener that stands alone is executable. -/
theorem isExecutableTopLevelOpener_opener (h : StandsAlone text lead indent behind) :
    isExecutableTopLevelOpener text (lead.length + indent) = true := by
  have htake : text.take (lead.length + indent) = lead ++ List.replicate indent ' ' := by
    rw [h.eq, ← List.append_assoc, List.take_left' (by simp)]
  have hlead₀ : slice text lead.length (lead.length + indent) = List.replicate indent ' ' := by
    rw [slice, htake, List.drop_left]
  have hbytes : byteLen (List.replicate indent ' ') = indent := by
    rw [byteLen, List.map_replicate, List.sum_replicate]
    exact Nat.mul_one _
  have hlead : text.take lead.length = lead := by rw [h.eq, List.take_left]
  have hlt : '<' ∉ lead ++ List.replicate indent ' ' := by
    rw [List.mem_append, not_or]
    exact ⟨lt_notMem_of_allWhitespace h.blank, fun hm => by
      have := List.eq_of_mem_replicate hm
      simp at this⟩
  have hindent := h.indent_le
  simp [isExecutableTopLevelOpener, h.lineStartOf_opener, hlead₀, hbytes, hlead, h.blank, htake,
    rfindText_eq_none hlt, h.not_isInsideCommonmarkRawHtmlBlock,
    h.not_hasAbandonedContainerFenceBefore, hindent]

end StandsAlone

/-- The visible scan finds nothing where no raw `<` is left. -/
theorem findNextVisibleDsmlTag_none {text : Text} {cursor : ℕ} (h : '<' ∉ text.drop cursor) :
    findNextVisibleDsmlTag text cursor = .ok none := by
  suffices hall : ∀ backticks rest position from' ranges, text.drop position = rest →
      cursor ≤ max position from' →
      findNextVisibleFrom text backticks rest position from' ranges = .ok none from
    hall _ _ _ _ _ rfl (le_max_right _ _)
  intro backticks rest
  induction rest with
  | nil => simp [findNextVisibleFrom]
  | cons c rest ih =>
    intro position from' ranges htext hle
    have hdrop := drop_succ_of_drop_eq_cons htext
    rw [findNextVisibleFrom]
    split_ifs with hlt
    · exact ih _ _ _ hdrop (by omega)
    · have hpos : cursor ≤ position := by omega
      have hc : c ≠ '<' := by
        rintro rfl
        have hmem : '<' ∈ text.drop position := htext ▸ List.mem_cons_self
        rw [← Nat.add_sub_cancel' hpos, ← List.drop_drop] at hmem
        exact h (List.mem_of_mem_drop hmem)
      have hvisit : ∀ later,
          findNextVisibleFrom.visit text backticks c rest position later = .ok none := by
        intro later
        simp only [findNextVisibleFrom.visit, if_neg hc]
        split
        · exact ih _ _ _ hdrop (by omega)
        · split_ifs
          · exact ih _ _ _ hdrop (by omega)
          · exact ih _ _ _ hdrop (by omega)
      split
      · exact hvisit []
      · split_ifs
        · exact ih _ _ _ hdrop (by omega)
        · exact hvisit _

end DeepseekScience.Dsml
