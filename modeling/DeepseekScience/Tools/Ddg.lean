import DeepseekScience.Llm.Secrets
import DeepseekScience.Llm.Sse
import DeepseekScience.Tools.BingRss

/-! The result page of a search (`builtin/web.rs`, `parse_ddg`). Markers are searched in the bytes
of the page, and the page is sliced at the places found. -/
namespace DeepseekScience.Tools

open Redaction Transactions

def asciiBytes (s : String) : List UInt8 := utf8Bytes s.toList

def findSubslice (haystack needle : List UInt8) : Option ℕ := Occurrences.first needle haystack

/-- The loop of `find_last_before`. -/
def findLastFrom (haystack needle : List UInt8) : ℕ → ℕ → Option ℕ → Option ℕ
  | 0, _, found => found
  | fuel + 1, start, found =>
    if start + needle.length ≤ haystack.length then
      match findSubslice (haystack.drop start) needle with
      | some p => findLastFrom haystack needle fuel (start + p + 1) (some (start + p))
      | none => found
    else found

/-- Every round starts behind the one before. -/
def findLastBefore (haystack needle : List UInt8) : Option ℕ :=
  findLastFrom haystack needle (haystack.length + 1) 0 none

def hexValue (b : UInt8) : Option UInt8 :=
  if 0x30 ≤ b ∧ b ≤ 0x39 then some (b - 0x30)
  else if 0x61 ≤ b ∧ b ≤ 0x66 then some (b - 0x61 + 10)
  else if 0x41 ≤ b ∧ b ≤ 0x46 then some (b - 0x41 + 10)
  else none

def decodePlus (b : UInt8) : UInt8 := if b = 0x2B then 0x20 else b

/-- The bytes that `%XX` and `+` stand for, with as many escaped bytes to be passed over. -/
def urlDecodeBytes : ℕ → List UInt8 → List UInt8
  | _, [] => []
  | skip + 1, _ :: rest => urlDecodeBytes skip rest
  | 0, b :: rest =>
    if b = 0x25 then
      match (rest[0]?).bind hexValue, (rest[1]?).bind hexValue with
      | some h, some l => (h * 16 + l) :: urlDecodeBytes 2 rest
      | _, _ => b :: urlDecodeBytes 0 rest
    else decodePlus b :: urlDecodeBytes 0 rest

def urlDecode (s : Text) : Text := Llm.fromUtf8Lossy (urlDecodeBytes 0 (utf8Bytes s))

def extractUddg (anchorHtml : Text) : Option Text :=
  (cutText "uddg=".toList anchorHtml).map fun (_, rest) =>
    urlDecode (rest.takeWhile fun c => c != '&' && c != '"')

/-- The snippet of a window: the text from the marker to the end of its element. -/
def windowSnippet (window : Text) : Text :=
  match cutText "result__snippet".toList window with
  | none => []
  | some (_, behind) =>
    let after := "result__snippet".toList ++ behind
    match (cutText "</a>".toList after).orElse fun _ => cutText "</td>".toList after with
    | none => []
    | some (element, _) => trim (dropTags false element)

def snippetWindow : ℕ := 4000

def findSnippet (rest : Text) : Except ScanFailure Text := do
  let win := min (byteLen rest) snippetWindow
  let (window, _) ← slice win rest
  pure (windowSnippet window)

/-- `&text[first..last]`. -/
def sliceBetween (first last : ℕ) (t : Text) : Except ScanFailure Text :=
  if first ≤ last ∧ isCharBoundary first t ∧ isCharBoundary last t then
    .ok (dropBytes first (takeBytes last t))
  else .error .slice

/-- Where the mark of a result stands, where its anchor opens, and where that closes. -/
structure Anchor where
  anchorStart : ℕ
  aOpen : ℕ
  aClose : ℕ
  deriving DecidableEq, Repr

/-- A result, with the anchor that it is read from. -/
structure Found where
  anchor : Anchor
  result : SearchResult
  deriving DecidableEq, Repr

def markBytes : List UInt8 := asciiBytes "result__a"

def openBytes : List UInt8 := asciiBytes "<a"

def closeBytes : List UInt8 := asciiBytes "</a>"

/-- The next anchor from a position on. -/
def nextAnchor (bytes : List UInt8) (pos : ℕ) : Option Anchor := do
  let rel ← findSubslice (bytes.drop pos) markBytes
  let anchorStart := pos + rel
  let aOpen ← findLastBefore (bytes.take anchorStart) openBytes
  let r ← findSubslice (bytes.drop anchorStart) closeBytes
  some ⟨anchorStart, aOpen, anchorStart + r⟩

def readAnchor (html : Text) (a : Anchor) : Except ScanFailure SearchResult := do
  let anchorHtml ← sliceBetween a.aOpen a.aClose html
  let targetUrl := (extractUddg anchorHtml).getD []
  let title := trim (dropTags false anchorHtml)
  let (_, rest) ← slice a.aClose html
  let snippet ← findSnippet rest
  pure ⟨title, targetUrl, snippet⟩

/-- The loop over the anchors. -/
def ddgLoop (html : Text) (max : ℕ) : ℕ → ℕ → List Found → Except ScanFailure (List Found)
  | 0, _, _ => .error .endless
  | fuel + 1, pos, out =>
    if pos < byteLen html ∧ out.length < max then
      match nextAnchor (utf8Bytes html) pos with
      | none => .ok out
      | some a => do
        let result ← readAnchor html a
        ddgLoop html max fuel (a.aClose + 4)
          (if result.title.isEmpty then out else out ++ [⟨a, result⟩])
    else .ok out

inductive DdgParseOutcome
  | results (found : List Found)
  | challenge
  | noResults
  | unrecognized

def isDdgChallenge (html : Text) : Bool :=
  let lowercase := toAsciiLowercase html
  containsText "duckduckgo.com/anomaly.js".toList lowercase ||
    containsText "data-testid=\"anomaly-modal\"".toList lowercase ||
    (containsText "id=\"challenge-form\"".toList lowercase &&
      containsText "name=\"challenge-submit\"".toList lowercase) ||
    containsText "unfortunately, bots use duckduckgo too".toList lowercase

def isDdgExplicitNoResults (html : Text) : Bool :=
  let lowercase := toAsciiLowercase html
  containsText "no-results__message".toList lowercase ||
    containsText "class=\"no-results\"".toList lowercase ||
    containsText "class='no-results'".toList lowercase

/-- A round that goes on moves the position, so that there are fewer rounds than bytes. -/
def parseDdg (html : Text) (max : ℕ) : Except ScanFailure DdgParseOutcome :=
  if isDdgChallenge html then .ok .challenge
  else do
    let out ← ddgLoop html max (byteLen html + 1) 0 []
    if out.isEmpty then
      .ok (if isDdgExplicitNoResults html then .noResults else .unrecognized)
    else .ok (.results out)

def DdgParseOutcome.found : DdgParseOutcome → List Found
  | results found => found
  | _ => []

end DeepseekScience.Tools
