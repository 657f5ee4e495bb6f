import DeepseekScience.Text

/-! Control tags of the textual tool protocol: heads, attributes and the recognition
of one candidate tag that starts at a raw `<`. -/
namespace DeepseekScience.Dsml

def maxAssistantTextBytes : ℕ := 2 * 1024 * 1024
def maxToolCallsPerTurn : ℕ := 32
def maxToolCallIdBytes : ℕ := 256
def maxToolNameBytes : ℕ := 256
def maxToolParametersPerCall : ℕ := 128
def maxToolParameterNameBytes : ℕ := 256
def maxToolArgumentBytesPerCall : ℕ := 512 * 1024
def maxToolArgumentBytesTotal : ℕ := 1024 * 1024

inductive DsmlError where
  | tooLarge | malformedTag | unknownTag | invalidAttributes | unexpectedTag | unclosedBlock
  | emptyBatch | duplicateParameter | invalidStringFlag | invalidJson | boundaryExceeded
  | multipleBlocks | invalidContext
  deriving DecidableEq, Repr

/-- The rendered error, as the Runner embeds it in its failure messages. -/
def DsmlError.toText : DsmlError → Text
  | .tooLarge => "assistant text exceeds the DSML quarantine limit".toList
  | .malformedTag => "malformed DSML tag".toList
  | .unknownTag => "unknown DSML control tag".toList
  | .invalidAttributes => "DSML tag has invalid attributes".toList
  | .unexpectedTag => "DSML control tags are out of order".toList
  | .unclosedBlock => "DSML control block is not closed".toList
  | .emptyBatch => "DSML tool-call batch is empty".toList
  | .duplicateParameter => "DSML parameter name is duplicated".toList
  | .invalidStringFlag => "DSML parameter has an invalid string flag".toList
  | .invalidJson => "DSML non-string parameter is not valid JSON".toList
  | .boundaryExceeded => "DSML tool-call batch exceeds its configured boundary".toList
  | .multipleBlocks => "multiple DSML tool-call blocks are not allowed in one turn".toList
  | .invalidContext => "DSML control protocol is not in an executable top-level block".toList

inductive TagName where
  | toolCalls | invoke | parameter
  deriving DecidableEq, Repr

structure DsmlTag where
  name : TagName
  closing : Bool
  attrs : List (Text × Text)
  deriving DecidableEq

inductive CandidateTag where
  | notDsml
  | dsml (tag : DsmlTag)
  deriving DecidableEq

/-- The two bar characters of the protocol, ASCII and full width. -/
def isProtocolBar (c : Char) : Bool := c == '|' || c == '｜'

def takeProtocolBarsFrom : Text → ℕ → Option Char → Bool → ℕ × Text × Option Char × Bool
  | [], count, marker, consistent => (count, [], marker, consistent)
  | c :: rest, count, marker, consistent =>
    if isProtocolBar c then
      takeProtocolBarsFrom rest (count + 1) (some (marker.getD c))
        (consistent && marker.getD c == c)
    else (count, c :: rest, marker, consistent)

/-- The number of leading bars, the text after them, the first bar, and whether all agree. -/
def takeProtocolBars (text : Text) : ℕ × Text × Option Char × Bool :=
  takeProtocolBarsFrom text 0 none true

/-- Constant-lookahead guard used before searching for a closing `>`. -/
def hasDsmlCandidatePrefix (text : Text) : Bool :=
  let text := (stripPrefixChar '/' text).getD text
  let (bars, rest, _, _) := takeProtocolBars text
  if bars = 0 then false
  else if bars > 2 then true
  else
    let probe := toAsciiUppercase ((rest.takeWhile isAsciiAlphabetic).take 4)
    probe.isPrefixOf "DSML".toList || probe == "DSML".toList

def parseDsmlHead (head : Text) : Except DsmlError (Option TagName) :=
  let (leadingBars, afterLeading, leadingMarker, leadingConsistent) := takeProtocolBars head
  if leadingBars = 0 then .ok none
  else if leadingBars > 2 || !leadingConsistent then .error .malformedTag
  else
    match getPrefixBytes 4 afterLeading with
    | none =>
      if (toAsciiUppercase afterLeading).isPrefixOf "DSML".toList then .error .malformedTag
      else .ok none
    | some dsml =>
      if !eqIgnoreAsciiCase dsml "DSML".toList then .ok none
      else
        let (trailingBars, tagName, trailingMarker, trailingConsistent) :=
          takeProtocolBars (dropBytes 4 afterLeading)
        if !(1 ≤ trailingBars && trailingBars ≤ 2) || !trailingConsistent ||
            leadingBars != trailingBars || leadingMarker != trailingMarker then
          .error .malformedTag
        else
          let tagName := toAsciiLowercase tagName
          if tagName = "tool_calls".toList then .ok (some .toolCalls)
          else if tagName = "invoke".toList then .ok (some .invoke)
          else if tagName = "parameter".toList then .ok (some .parameter)
          else .error .unknownTag

def isAttributeKeyChar (c : Char) : Bool := isAsciiAlphanumeric c || c == '_' || c == '-'

/-- One attribute value with the input after it: quoted up to the matching quote, or bare up
to the next whitespace. -/
def parseAttributeValue : Text → Except DsmlError (Text × Text)
  | [] => .error .malformedTag
  | c :: body =>
    if c = '\'' ∨ c = '"' then
      if c ∈ body then .ok (body.takeWhile (· != c), (body.dropWhile (· != c)).tail)
      else .error .malformedTag
    else .ok ((c :: body).takeWhile (!isWhitespace ·), (c :: body).dropWhile (!isWhitespace ·))

/-- The attribute loop. Every round consumes at least a key and its `=`, so the length of
the input is enough fuel. -/
def parseAttributesFrom : ℕ → Text → List (Text × Text) → Except DsmlError (List (Text × Text))
  | 0, _, attrs => .ok attrs
  | fuel + 1, input, attrs =>
    let input := trimStart input
    if input.isEmpty then .ok attrs
    else
      let key := toAsciiLowercase (input.takeWhile isAttributeKeyChar)
      if key.isEmpty then .error .malformedTag
      else
        match stripPrefixChar '=' (trimStart (input.dropWhile isAttributeKeyChar)) with
        | none => .error .malformedTag
        | some rest =>
          match parseAttributeValue (trimStart rest) with
          | .error e => .error e
          | .ok (value, rest) =>
            if (attrs.lookup key).isSome then .error .invalidAttributes
            else parseAttributesFrom fuel rest (attrs ++ [(key, value)])

def parseAttributes (input : Text) : Except DsmlError (List (Text × Text)) :=
  parseAttributesFrom (input.length + 1) input []

/-- Decide what the `<` in front of `afterLt` starts. -/
def parseCandidateTag (afterLt : Text) : Except DsmlError CandidateTag :=
  if !hasDsmlCandidatePrefix afterLt then .ok .notDsml
  else if '>' ∉ afterLt then
    let tail := trim afterLt
    let tail := trimStart ((stripPrefixChar '/' tail).getD tail)
    match parseDsmlHead (tail.takeWhile (!isWhitespace ·)) with
    | .ok none => .ok .notDsml
    | _ => .error .malformedTag
  else
    let inside := trim (afterLt.takeWhile (· != '>'))
    let (closing, inside) :=
      match stripPrefixChar '/' inside with
      | some rest => (true, trimStart rest)
      | none => (false, inside)
    match parseDsmlHead (inside.takeWhile (!isWhitespace ·)) with
    | .error e => .error e
    | .ok none => .ok .notDsml
    | .ok (some name) =>
      match parseAttributes (inside.dropWhile (!isWhitespace ·)) with
      | .error e => .error e
      | .ok attrs =>
        if closing && !attrs.isEmpty then .error .invalidAttributes
        else .ok (.dsml ⟨name, closing, attrs⟩)

/-- The text behind the `>` that closes the tag in front of it. -/
def findTagEnd (afterLt : Text) : Except DsmlError Text :=
  if '>' ∈ afterLt then .ok (afterLt.dropWhile (· != '>')).tail else .error .malformedTag

def requiredAttr (tag : DsmlTag) (key : Text) : Except DsmlError Text :=
  match tag.attrs.lookup key with
  | some value => .ok value
  | none => .error .invalidAttributes

def requiredSingleAttr (tag : DsmlTag) (key : Text) : Except DsmlError Text :=
  if tag.attrs.length ≠ 1 then .error .invalidAttributes else requiredAttr tag key

def requireAttrs (tag : DsmlTag) (expected : List Text) : Except DsmlError Unit :=
  if tag.attrs.length = expected.length &&
      expected.all (fun name => (tag.attrs.lookup name).isSome) then .ok ()
  else .error .invalidAttributes

end DeepseekScience.Dsml
