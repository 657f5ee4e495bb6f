import DeepseekScience.Lib.Occurrences
import DeepseekScience.Lib.Ranges
import DeepseekScience.Lib.Transaction
import DeepseekScience.Text

/-! The redaction of credentials in the error texts of a provider (dss-llm, `client.rs`): three
scanners collect ranges of bytes, and the text is put together again without them. -/
namespace DeepseekScience.Redaction

open Occurrences Ranges Transactions

/-- The UTF-8 bytes of a text. -/
def utf8Bytes (t : Text) : List UInt8 := t.flatMap String.utf8EncodeChar

def redactedCredential : Text := "[REDACTED]".toList

/-! Kinds of bytes. -/

def isAsciiWhitespace (b : UInt8) : Bool :=
  b == 0x20 || b == 0x09 || b == 0x0A || b == 0x0C || b == 0x0D

def isBlank (b : UInt8) : Bool := b == 0x20 || b == 0x09

/-- `'` and `"`. -/
def isQuote (b : UInt8) : Bool := b == 0x27 || b == 0x22

/-- `:` and `=`. -/
def isSeparator (b : UInt8) : Bool := b == 0x3A || b == 0x3D

def isAsciiAlphanumericByte (b : UInt8) : Bool :=
  (decide (0x30 ≤ b) && decide (b ≤ 0x39)) || (decide (0x41 ≤ b) && decide (b ≤ 0x5A)) ||
    (decide (0x61 ≤ b) && decide (b ≤ 0x7A))

/-- Letters, digits, `_` and `-`. -/
def isIdentifierByte (b : UInt8) : Bool := isAsciiAlphanumericByte b || b == 0x5F || b == 0x2D

/-- The bytes of an identifier, and `.`. -/
def isTokenByte (b : UInt8) : Bool :=
  isAsciiAlphanumericByte b || b == 0x5F || b == 0x2D || b == 0x2E

/-- Line breaks, `,`, `&`, `;`, `}` and `]`. -/
def isUnquotedSecretDelimiter (b : UInt8) : Bool :=
  b == 0x0D || b == 0x0A || b == 0x2C || b == 0x26 || b == 0x3B || b == 0x7D || b == 0x5D

/-- What a value without quotes is made of. -/
def isBare (b : UInt8) : Bool := !(isAsciiWhitespace b || isUnquotedSecretDelimiter b)

def lowercaseByte (b : UInt8) : UInt8 := if 0x41 ≤ b ∧ b ≤ 0x5A then b + 0x20 else b

def lowercase (bytes : List UInt8) : List UInt8 := bytes.map lowercaseByte

def authorizationKey : List UInt8 := utf8Bytes "authorization".toList

def credentialKeys : List (List UInt8) :=
  [authorizationKey, utf8Bytes "x-api-key".toList, utf8Bytes "deepseek_api_key".toList,
    utf8Bytes "openai_api_key".toList, utf8Bytes "api_key".toList, utf8Bytes "api-key".toList,
    utf8Bytes "apikey".toList]

def bearerMarker : List UInt8 := utf8Bytes "bearer".toList

def bearerScheme : List UInt8 := utf8Bytes "bearer ".toList

def keyPrefix : List UInt8 := utf8Bytes "sk-".toList

/-! The scanners. -/

/-- An identifier stands right in front of a place. -/
def followsIdentifier (bytes : List UInt8) (start : ℕ) : Bool :=
  decide (0 < start) && (lowercase bytes)[start - 1]?.any isIdentifierByte

/-- Where the value of a name begins: behind its separator and the blanks there. -/
def valueCursor (bytes : List UInt8) (keyEnd : ℕ) : Option ℕ :=
  let cursor := skipWhile (fun b => isAsciiWhitespace b || isQuote b) bytes keyEnd
  match bytes[cursor]? with
  | some b => if isSeparator b then some (skipWhile isAsciiWhitespace bytes (cursor + 1)) else none
  | none => none

/-- A range with something in it. -/
def nonEmpty (first last : ℕ) : Option (ℕ × ℕ) := if first < last then some (first, last) else none

/-- The value of a `bearer` scheme begins here. -/
def bearerValue (bytes : List UInt8) (value : ℕ) : Bool :=
  bearerScheme.isPrefixOf ((lowercase bytes).drop value)

/-- A value in quotes, up to the next one; without quotes, up to a blank or a delimiter. -/
def tokenRange (bytes : List UInt8) (token behind : ℕ) : Option (ℕ × ℕ) :=
  match bytes[token]?.filter isQuote with
  | some quote => nonEmpty (token + 1) (skipWhile (· != quote) bytes (token + 1))
  | none => nonEmpty token (skipWhile isBare bytes behind)

def namedSecretRange (bytes key : List UInt8) (start : ℕ) : Option (ℕ × ℕ) :=
  let keyEnd := start + key.length
  if followsIdentifier bytes start || (lowercase bytes)[keyEnd]?.any isIdentifierByte then none
  else
    (valueCursor bytes keyEnd).bind fun value =>
      tokenRange bytes value
        (if bearerValue bytes value then value + bearerScheme.length else value)

def bearerRange (bytes : List UInt8) (start : ℕ) : Option (ℕ × ℕ) :=
  let markerEnd := start + bearerMarker.length
  if followsIdentifier bytes start || !bytes[markerEnd]?.any isAsciiWhitespace then none
  else
    let token := skipWhile isAsciiWhitespace bytes markerEnd
    tokenRange bytes token token

def prefixedTokenRange (bytes : List UInt8) (start : ℕ) : Option (ℕ × ℕ) :=
  if followsIdentifier bytes start then none
  else
    let prefixEnd := start + keyPrefix.length
    let last := skipWhile isTokenByte bytes prefixEnd
    if prefixEnd < last then some (start, last) else none

inductive RedactFault where
  | endless
  | slice
  deriving DecidableEq

/-- One scanner: the search for its marker, and the range at each place. -/
def collectRanges (bytes marker : List UInt8) (range : ℕ → Option (ℕ × ℕ)) :
    Except RedactFault (List (ℕ × ℕ)) :=
  match search marker (lowercase bytes) (bytes.length + 1) 0 with
  | some places => .ok (places.filterMap range)
  | none => .error .endless

def collectNamedSecretRanges (bytes : List UInt8) :
    List (List UInt8) → Except RedactFault (List (ℕ × ℕ))
  | [] => .ok []
  | key :: rest => do
    let ranges ← collectRanges bytes key (namedSecretRange bytes key)
    let others ← collectNamedSecretRanges bytes rest
    return ranges ++ others

/-- The ranges that are redacted, in their order. -/
def credentialRanges (input : Text) : Except RedactFault (List (ℕ × ℕ)) := do
  let bytes := utf8Bytes input
  let named ← collectNamedSecretRanges bytes credentialKeys
  let bearer ← collectRanges bytes bearerMarker (bearerRange bytes)
  let prefixed ← collectRanges bytes keyPrefix (prefixedTokenRange bytes)
  return merge ((named ++ bearer ++ prefixed).insertionSort fun a b => toLex a ≤ toLex b)

/-- `&input[first..last]`. -/
def slice (input : Text) (first last : ℕ) : Except RedactFault Text :=
  if first ≤ last ∧ isCharBoundary first input = true ∧ isCharBoundary last input = true then
    .ok (takeBytes (last - first) (dropBytes first input))
  else .error .slice

def spliceFrom (input : Text) : ℕ → List (ℕ × ℕ) → Except RedactFault Text
  | cursor, [] => slice input cursor (byteLen input)
  | cursor, range :: rest => do
    let kept ← slice input cursor range.1
    let output ← spliceFrom input range.2 rest
    return kept ++ redactedCredential ++ output

def redactCredentials (input : Text) : Except RedactFault Text := do
  let ranges ← credentialRanges input
  if ranges.isEmpty then return input
  else spliceFrom input 0 ranges

end DeepseekScience.Redaction
