import DeepseekScience.Text

/-! The Markdown layer of the scanner: code regions that hide control protocol from the
visible scan, and the contexts in which a top-level opener is not executable.

Positions count characters of the whole turn. A `while` loop over a cursor is a
structural recursion over the remaining characters: a round runs at the first position
that has reached the cursor, and positions in front of the cursor are passed over. -/
namespace DeepseekScience.Dsml

/-- `&text[start..stop]`. -/
def slice (text : Text) (start stop : ℕ) : Text := (text.take stop).drop start

def lineEnd (text : Text) (start : ℕ) : ℕ :=
  start + ((text.drop start).takeWhile (· != '\n')).length

/-- The start of the line after the one that starts at `start`, or the end of the text. -/
def nextLine (text : Text) (start : ℕ) : ℕ :=
  let stop := lineEnd text start
  if stop < text.length then stop + 1 else stop

/-- The start of the line that contains `position`. -/
def lineStartOf (text : Text) (position : ℕ) : ℕ :=
  position - ((text.take position).reverse.takeWhile (· != '\n')).length

def isLineStart (text : Text) (index : ℕ) : Bool := index == 0 || text[index - 1]? == some '\n'

def isBlankOrTab (c : Option Char) : Bool := c == some ' ' || c == some '\t'

def markdownIndentFrom : Text → ℕ → ℕ → ℕ × ℕ
  | [], columns, cursor => (columns, cursor)
  | c :: rest, columns, cursor =>
    if c = ' ' then markdownIndentFrom rest (columns + 1) (cursor + 1)
    else if c = '\t' then markdownIndentFrom rest (columns + (4 - columns % 4)) (cursor + 1)
    else (columns, cursor)

def markdownIndent (text : Text) (cursor : ℕ) : ℕ × ℕ :=
  markdownIndentFrom (text.drop cursor) 0 cursor

def fenceRunAt (text : Text) (start : ℕ) : Option (Char × ℕ) :=
  match text.drop start with
  | [] => none
  | marker :: rest =>
    if marker = '`' ∨ marker = '~' then
      let width := ((marker :: rest).takeWhile (· == marker)).length
      if 3 ≤ width then some (marker, width) else none
    else none

structure FenceContainer where
  blockquoteDepth : ℕ
  listIndent : Option ℕ
  deriving DecidableEq, Repr

/-- Each round consumes a `>` of the line, so the length of the line is enough fuel. -/
def markdownBlockquotePrefixFrom (text : Text) (stop : ℕ) : ℕ → ℕ → ℕ → ℕ × ℕ × ℕ
  | fuel, cursor, depth =>
    let (indent, content) := markdownIndent text cursor
    if indent > 3 || content ≥ stop || text[content]? != some '>' then
      (depth, indent, min content stop)
    else
      match fuel with
      | 0 => (depth, indent, min content stop)
      | fuel + 1 =>
        let cursor := content + 1
        let cursor := if isBlankOrTab text[cursor]? then cursor + 1 else cursor
        markdownBlockquotePrefixFrom text stop fuel cursor (depth + 1)

/-- Block quote depth, indent columns and content start of one line. -/
def markdownBlockquotePrefix (text : Text) (start stop : ℕ) : ℕ × ℕ × ℕ :=
  markdownBlockquotePrefixFrom text stop (stop - start) start 0

def listMarker (text : Text) (start stop : ℕ) : Option (ℕ × ℕ) :=
  match text[start]? with
  | none => none
  | some first =>
    if first = '-' ∨ first = '+' ∨ first = '*' then
      if isBlankOrTab text[start + 1]? then some (start + 1, 1) else none
    else
      let digits := ((slice text start (min stop (start + 9))).takeWhile isAsciiDigit).length
      let cursor := start + digits
      if digits = 0 || cursor ≥ stop || !(text[cursor]? == some '.' || text[cursor]? == some ')') then
        none
      else if isBlankOrTab text[cursor + 1]? then some (cursor + 1, digits + 1) else none

/-- Content start, marker, width and container of a fence that opens on the line. -/
def fenceOpeningAtLine (text : Text) (start stop : ℕ) : Option (ℕ × Char × ℕ × FenceContainer) :=
  let (blockquoteDepth, indentColumns, contentStart) := markdownBlockquotePrefix text start stop
  if indentColumns > 3 then none
  else
    let content : Option (Option ℕ × ℕ) :=
      match listMarker text contentStart stop with
      | none => some (none, contentStart)
      | some (afterMarker, markerColumns) =>
        let (followingIndent, afterIndent) := markdownIndent text afterMarker
        if followingIndent = 0 || afterIndent > stop then none
        else some (some (indentColumns + markerColumns + followingIndent), afterIndent)
    match content with
    | none => none
    | some (listIndent, contentStart) =>
      match fenceRunAt text contentStart with
      | none => none
      | some (marker, width) =>
        if marker != '`' || !(slice text (contentStart + width) stop).contains '`' then
          some (contentStart, marker, width, ⟨blockquoteDepth, listIndent⟩)
        else none

structure ActiveFence where
  opening : ℕ
  marker : Char
  width : ℕ
  container : FenceContainer
  deriving DecidableEq, Repr

/-- What the line scanners read of one line. -/
structure LineView where
  stop : ℕ
  blockquoteDepth : ℕ
  indentColumns : ℕ
  contentStart : ℕ
  logicalBlank : Bool

def lineView (text : Text) (cursor : ℕ) : LineView :=
  let stop := lineEnd text cursor
  let (blockquoteDepth, indentColumns, contentStart) := markdownBlockquotePrefix text cursor stop
  ⟨stop, blockquoteDepth, indentColumns, contentStart, (trim (slice text contentStart stop)).isEmpty⟩

def ActiveFence.containerContinues (fence : ActiveFence) (line : LineView) : Bool :=
  line.blockquoteDepth == fence.container.blockquoteDepth &&
    match fence.container.listIndent with
    | none => true
    | some listIndent => line.logicalBlank || decide (listIndent ≤ line.indentColumns)

def ActiveFence.validClose (fence : ActiveFence) (text : Text) (line : LineView) : Bool :=
  let indentMatches :=
    match fence.container.listIndent with
    | some listIndent =>
      decide (listIndent ≤ line.indentColumns) && decide (line.indentColumns ≤ listIndent + 3)
    | none => decide (line.indentColumns ≤ 3)
  let candidateWidth :=
    ((slice text line.contentStart line.stop).takeWhile (· == fence.marker)).length
  indentMatches && decide (fence.width ≤ candidateWidth) &&
    (slice text (line.contentStart + candidateWidth) line.stop).all
      fun c => c == ' ' || c == '\t' || c == '\r'

structure BlockState where
  activeFence : Option ActiveFence
  canStartIndentedCode : Bool
  inIndentedCode : Bool

/-- One line outside of a continuing fence. -/
def blockLine (text : Text) (cursor : ℕ) (line : LineView) (s : BlockState) :
    List (ℕ × ℕ) × BlockState :=
  match fenceOpeningAtLine text cursor line.stop with
  | some (_, marker, width, container) => ([], ⟨some ⟨cursor, marker, width, container⟩, false, false⟩)
  | none =>
    if 4 ≤ line.indentColumns && (s.canStartIndentedCode || s.inIndentedCode) then
      ([(cursor, nextLine text cursor)], ⟨none, false, true⟩)
    else if line.logicalBlank then
      (if s.inIndentedCode then [(cursor, nextLine text cursor)] else [],
        ⟨none, true, s.inIndentedCode⟩)
    else ([], ⟨none, false, false⟩)

/-- One round of the forward pass: the ranges that the line at `cursor` completes. -/
def blockStep (text : Text) (cursor : ℕ) (s : BlockState) : List (ℕ × ℕ) × BlockState :=
  let line := lineView text cursor
  match s.activeFence with
  | none => blockLine text cursor line s
  | some fence =>
    if !fence.containerContinues line then blockLine text cursor line s
    else if fence.validClose text line then
      ([(fence.opening, nextLine text cursor)], ⟨none, true, false⟩)
    else ([], s)

def completeMarkdownBlockRangesFrom (text : Text) : Text → ℕ → ℕ → BlockState → List (ℕ × ℕ)
  | [], _, _, _ => []
  | _ :: rest, position, cursor, s =>
    if position < cursor then completeMarkdownBlockRangesFrom text rest (position + 1) cursor s
    else
      (blockStep text position s).1 ++
        completeMarkdownBlockRangesFrom text rest (position + 1) (nextLine text position)
          (blockStep text position s).2

/-- Complete fenced blocks and four-column indented code. An unterminated fence
contributes no range, so it cannot hide a control marker. -/
def completeMarkdownBlockRanges (text : Text) : List (ℕ × ℕ) :=
  completeMarkdownBlockRangesFrom text text 0 0 ⟨none, true, false⟩

/-- Ranges that a forward scan at `cursor` has not passed yet. -/
def pendingRanges (ranges : List (ℕ × ℕ)) (cursor : ℕ) : List (ℕ × ℕ) :=
  ranges.dropWhile fun r => decide (r.2 ≤ cursor)

def isBackslashEscaped (text : Text) (start : ℕ) : Bool :=
  ((text.take start).reverse.takeWhile (· == '\\')).length % 2 == 1

/-- Backslash escaping consumes the first backtick, not the whole adjacent run. -/
def normalizedBacktickRun (text : Text) (start rawWidth : ℕ) : Option (ℕ × ℕ) :=
  if isBackslashEscaped text start then
    if 1 < rawWidth then some (start + 1, rawWidth - 1) else none
  else some (start, rawWidth)

/-- Backtick runs as (width, start, stop) in text order, and the starts that may open a span. -/
structure BacktickIndex where
  runs : List (ℕ × ℕ × ℕ)
  eligibleOpenings : List ℕ

def fenceStartsFrom (text : Text) : Text → ℕ → ℕ → List ℕ
  | [], _, _ => []
  | _ :: rest, position, cursor =>
    if position < cursor then fenceStartsFrom text rest (position + 1) cursor
    else
      let later := fenceStartsFrom text rest (position + 1) (nextLine text position)
      match fenceOpeningAtLine text position (lineEnd text position) with
      | some (contentStart, '`', _, _) => contentStart :: later
      | _ => later

def backtickWidth (suffix : Text) : ℕ := (suffix.takeWhile (· == '`')).length

/-- The entries that the run of `rawWidth` backticks at `cursor` adds. -/
def BacktickIndex.entriesAt (text : Text) (fenceStarts : List ℕ) (cursor rawWidth : ℕ) :
    BacktickIndex :=
  if cursor ∈ fenceStarts then ⟨[], []⟩
  else if isBackslashEscaped text cursor then
    match normalizedBacktickRun text cursor rawWidth with
    | some (start, width) =>
      ⟨[(rawWidth, cursor, cursor + rawWidth), (width, start, cursor + rawWidth)], [start]⟩
    | none => ⟨[(rawWidth, cursor, cursor + rawWidth)], []⟩
  else ⟨[(rawWidth, cursor, cursor + rawWidth)], [cursor]⟩

def BacktickIndex.buildFrom (text : Text) (fenceStarts : List ℕ) :
    Text → ℕ → ℕ → List (ℕ × ℕ) → BacktickIndex
  | [], _, _, _ => ⟨[], []⟩
  | c :: rest, position, cursor, ranges =>
    if position < cursor then buildFrom text fenceStarts rest (position + 1) cursor ranges
    else
      match pendingRanges ranges position with
      | [] => visit c rest position []
      | (start, stop) :: later =>
        if start ≤ position then buildFrom text fenceStarts rest (position + 1) stop later
        else visit c rest position ((start, stop) :: later)
where
  visit (c : Char) (rest : Text) (position : ℕ) (ranges : List (ℕ × ℕ)) : BacktickIndex :=
    if c = '`' then
      let rawWidth := backtickWidth (c :: rest)
      let entries := BacktickIndex.entriesAt text fenceStarts position rawWidth
      let later := buildFrom text fenceStarts rest (position + 1) (position + rawWidth) ranges
      ⟨entries.runs ++ later.runs, entries.eligibleOpenings ++ later.eligibleOpenings⟩
    else buildFrom text fenceStarts rest (position + 1) (position + 1) ranges

def BacktickIndex.build (text : Text) (protectedBlocks : List (ℕ × ℕ)) : BacktickIndex :=
  BacktickIndex.buildFrom text (fenceStartsFrom text text 0 0) text 0 0 protectedBlocks

/-- The end of the span that the run of `width` backticks at `opening` opens. -/
def BacktickIndex.closingEnd (index : BacktickIndex) (opening width : ℕ) : Option ℕ :=
  if opening ∉ index.eligibleOpenings then none
  else
    let runs := index.runs.filter fun r => r.1 == width
    match runs.dropWhile fun r => r.2.1 != opening with
    | _ :: next :: _ => some next.2.2
    | _ => none

inductive RawHtmlBlockEnd where
  | blankLine
  | literal (terminator : Text)
  | asciiCaseInsensitive (terminator : Text)
  deriving DecidableEq

def RawHtmlBlockEnd.occursOn (line : Text) : RawHtmlBlockEnd → Bool
  | .blankLine => (trim line).isEmpty
  | .literal terminator => containsText terminator line
  | .asciiCaseInsensitive terminator => containsText terminator (toAsciiLowercase line)

/-- Whether the tag closes, its name, and the text after the name. -/
def htmlTagHead : Text → Option (Bool × Text × Text)
  | '<' :: rest =>
    let closing := rest.head? == some '/'
    let body := if closing then rest.tail else rest
    match body with
    | [] => none
    | c :: tail =>
      if !isAsciiAlphabetic c then none
      else
        let isNameChar := fun d => isAsciiAlphanumeric d || d == '-'
        let after := tail.dropWhile isNameChar
        let boundary := match after.head? with
          | none => true
          | some b => b == ' ' || b == '\t' || b == '\r' || b == '/' || b == '>'
        if boundary then some (closing, c :: tail.takeWhile isNameChar, after) else none
  | _ => none

def isCompleteHtmlTagTailFrom : Text → Option Char → Bool
  | [], _ => false
  | c :: rest, some expected => isCompleteHtmlTagTailFrom rest (if c = expected then none else some expected)
  | c :: rest, none =>
    if c = '\'' ∨ c = '"' then isCompleteHtmlTagTailFrom rest (some c)
    else if c = '>' then rest.all fun d => d == ' ' || d == '\t' || d == '\r'
    else isCompleteHtmlTagTailFrom rest none

def isCompleteHtmlTagTail (tail : Text) : Bool := isCompleteHtmlTagTailFrom tail none

def blockTags : List String :=
  ["address", "article", "aside", "base", "basefont", "blockquote", "body", "caption", "center",
    "col", "colgroup", "dd", "details", "dialog", "dir", "div", "dl", "dt", "fieldset",
    "figcaption", "figure", "footer", "form", "frame", "frameset", "h1", "h2", "h3", "h4", "h5",
    "h6", "head", "header", "hr", "html", "iframe", "legend", "li", "link", "main", "menu",
    "menuitem", "nav", "noframes", "ol", "optgroup", "option", "p", "param", "search", "section",
    "summary", "table", "tbody", "td", "tfoot", "th", "thead", "title", "tr", "track", "ul"]

def isCommonmarkBlockTag (name : Text) : Bool :=
  blockTags.any fun candidate => eqIgnoreAsciiCase name candidate.toList

def rawTextTags : List String := ["script", "pre", "style", "textarea"]

def rawHtmlBlockOpener (line : Text) : Option RawHtmlBlockEnd :=
  let (indent, contentStart) := markdownIndent line 0
  if indent > 3 then none
  else
    let line := line.drop contentStart
    if "<!--".toList.isPrefixOf line then some (.literal "-->".toList)
    else if "<?".toList.isPrefixOf line then some (.literal "?>".toList)
    else if "<![CDATA[".toList.isPrefixOf line then some (.literal "]]>".toList)
    else if "<!".toList.isPrefixOf line && ((line.drop 2).head?).any isAsciiUppercase then
      some (.literal ">".toList)
    else
      match htmlTagHead line with
      | none => none
      | some (closing, name, afterName) =>
        match if closing then none
            else rawTextTags.find? fun tag => eqIgnoreAsciiCase name tag.toList with
        | some tag => some (.asciiCaseInsensitive ("</".toList ++ tag.toList ++ ">".toList))
        | none =>
          if isCommonmarkBlockTag name || isCompleteHtmlTagTail afterName then some .blankLine
          else none

/-- The state of the raw HTML scanner after one line. -/
def rawHtmlStep (line : Text) : Option RawHtmlBlockEnd → Option RawHtmlBlockEnd
  | some terminator => if terminator.occursOn line then none else some terminator
  | none =>
    match rawHtmlBlockOpener line with
    | some terminator => if terminator.occursOn line then none else some terminator
    | none => none

def rawHtmlScanFrom (text : Text) (targetLine : ℕ) :
    Text → ℕ → ℕ → Option RawHtmlBlockEnd → Option RawHtmlBlockEnd
  | [], _, _, active => active
  | _ :: rest, position, cursor, active =>
    if position < cursor then rawHtmlScanFrom text targetLine rest (position + 1) cursor active
    else if targetLine ≤ position then active
    else
      let stop := min (lineEnd text position) (targetLine - 1)
      rawHtmlScanFrom text targetLine rest (position + 1)
        (if stop < targetLine then stop + 1 else targetLine)
        (rawHtmlStep (slice text position stop) active)

def isInsideCommonmarkRawHtmlBlock (text : Text) (target : ℕ) : Bool :=
  (rawHtmlScanFrom text (lineStartOf text target) text 0 0 none).isSome

/-- The fence of a block quote or list item that is still open, `none` once one was abandoned. -/
def containerFenceStep (text : Text) (cursor : ℕ) (active : Option ActiveFence) :
    Option (Option ActiveFence) :=
  let line := lineView text cursor
  match active with
  | some fence =>
    if !fence.containerContinues line then none
    else if fence.validClose text line then some none
    else some (some fence)
  | none =>
    match fenceOpeningAtLine text cursor line.stop with
    | some (_, marker, width, container) =>
      if 0 < container.blockquoteDepth || container.listIndent.isSome then
        some (some ⟨cursor, marker, width, container⟩)
      else some none
    | none => some none

def hasAbandonedContainerFenceFrom (text : Text) (target : ℕ) :
    Text → ℕ → ℕ → List (ℕ × ℕ) → Option ActiveFence → Bool
  | [], _, _, _, _ => false
  | _ :: rest, position, cursor, ranges, active =>
    if position < cursor then
      hasAbandonedContainerFenceFrom text target rest (position + 1) cursor ranges active
    else if target < position then false
    else
      match pendingRanges ranges position with
      | [] => visit rest position [] active
      | (start, stop) :: later =>
        if start ≤ position then
          hasAbandonedContainerFenceFrom text target rest (position + 1) stop later active
        else visit rest position ((start, stop) :: later) active
where
  visit (rest : Text) (position : ℕ) (ranges : List (ℕ × ℕ)) (active : Option ActiveFence) : Bool :=
    match containerFenceStep text position active with
    | none => true
    | some active =>
      hasAbandonedContainerFenceFrom text target rest (position + 1) (nextLine text position)
        ranges active

def hasAbandonedContainerFenceBefore (text : Text) (target : ℕ) : Bool :=
  hasAbandonedContainerFenceFrom text target text 0 0 (completeMarkdownBlockRanges text) none

/-- The stand-alone envelope rule: outside of the one complete block only whitespace. -/
def isExecutableTopLevelOpener (text : Text) (start : ℕ) : Bool :=
  let lineStart := lineStartOf text start
  let linePrefix := slice text lineStart start
  if byteLen linePrefix > 3 || !linePrefix.all (· == ' ') then false
  else
    let before := text.take start
    allWhitespace (text.take lineStart) &&
      (match rfindText "<!--".toList before with
        | none => true
        | some opened =>
          match rfindText "-->".toList before with
          | none => false
          | some closed => decide (opened < closed)) &&
      !isInsideCommonmarkRawHtmlBlock text start &&
      !hasAbandonedContainerFenceBefore text start

theorem le_nextLine (text : Text) (position : ℕ) : position ≤ nextLine text position := by
  have hle : position ≤ lineEnd text position := Nat.le_add_right ..
  simp only [nextLine]
  split <;> omega

theorem lt_nextLine_of_lt {text : Text} {position : ℕ} (h : position < text.length) :
    position < nextLine text position := by
  have hle : position ≤ lineEnd text position := Nat.le_add_right ..
  simp only [nextLine]
  split <;> omega

theorem lineStartOf_le (text : Text) (position : ℕ) : lineStartOf text position ≤ position :=
  Nat.sub_le _ _

/-- An executable opener has only whitespace in front of it. -/
theorem allWhitespace_of_isExecutableTopLevelOpener {text : Text} {start : ℕ}
    (h : isExecutableTopLevelOpener text start = true) :
    allWhitespace (text.take start) = true := by
  simp only [isExecutableTopLevelOpener] at h
  split_ifs at h with hc
  simp only [Bool.or_eq_true, Bool.not_eq_true', not_or, Bool.not_eq_false, Bool.and_eq_true] at hc h
  have hle := lineStartOf_le text start
  have hsplit : text.take start =
      text.take (lineStartOf text start) ++ slice text (lineStartOf text start) start := by
    have := (List.take_append_drop (lineStartOf text start) (text.take start)).symm
    rwa [List.take_take, min_eq_left hle] at this
  rw [hsplit, allWhitespace_append, h.1.1.1, Bool.true_and]
  apply List.all_eq_true.mpr
  intro c hm
  have := List.all_eq_true.mp hc.2 c hm
  rw [beq_iff_eq] at this
  exact this ▸ isWhitespace_space

end DeepseekScience.Dsml
