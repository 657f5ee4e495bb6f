import DeepseekScience.Llm.Redaction
import Mathlib.Data.Prod.Lex
import Mathlib.Data.List.Sort

/-! What of a provider's error text is secret, and when the redaction hides all of it: the scanners
end a quoted value at its first quote, and know one scheme of an authorization only. -/
namespace DeepseekScience.Redaction

open Occurrences Ranges Transactions

/-! What a secret is. -/

/-- Where a quoted text ends: at its quote, unless a backslash stands in front of it. -/
def closingQuote (quote : UInt8) : List UInt8 → ℕ
  | [] => 0
  | [b] => if b = quote then 0 else 1
  | b :: c :: rest =>
    if b = quote then 0
    else if b = 0x5C then closingQuote quote rest + 2
    else closingQuote quote (c :: rest) + 1

/-- The value of a credential begins here, behind a name that stands on its own. -/
structure ValueAt (bytes key : List UInt8) (value : ℕ) : Prop where
  known : key ∈ credentialKeys
  named : ∃ start, Occurs key (lowercase bytes) start ∧ followsIdentifier bytes start = false ∧
    (lowercase bytes)[start + key.length]?.any isIdentifierByte = false ∧
    valueCursor bytes (start + key.length) = some value

/-- A quoted value. -/
structure QuotedAt (bytes : List UInt8) (value : ℕ) (quote : UInt8) : Prop where
  valueAt : ∃ key, ValueAt bytes key value
  quoted : bytes[value]? = some quote
  isQuote : isQuote quote = true

/-- Where a value without quotes ends. -/
def bareEnd (bytes : List UInt8) (value : ℕ) : ℕ := skipWhile isBare bytes value

/-- The value of an authorization in the form scheme, blanks, credentials. -/
structure SchemeValue (bytes : List UInt8) (value credentials : ℕ) : Prop where
  valueAt : ValueAt bytes authorizationKey value
  unquoted : bytes[value]?.any isQuote = false
  scheme : value < bareEnd bytes value
  blanks : bareEnd bytes value < credentials
  behind : credentials = skipWhile isBlank bytes (bareEnd bytes value)
  credentials : credentials < bareEnd bytes credentials

/-- Where the token behind a scheme of bearers begins. -/
def bearerToken (bytes : List UInt8) (start : ℕ) : ℕ :=
  skipWhile isAsciiWhitespace bytes (start + bearerMarker.length)

/-- The scheme of bearers, on its own. -/
structure BearerAt (bytes : List UInt8) (start : ℕ) : Prop where
  occurs : Occurs bearerMarker (lowercase bytes) start
  alone : followsIdentifier bytes start = false
  space : bytes[start + bearerMarker.length]?.any isAsciiWhitespace = true

/-- Where a token that begins with `sk-` ends. -/
def keyTokenEnd (bytes : List UInt8) (start : ℕ) : ℕ :=
  skipWhile isTokenByte bytes (start + keyPrefix.length)

/-- The secrets that end at a delimiter or at the first quote, as ranges of the bytes. -/
inductive PlainSecret (bytes : List UInt8) : ℕ → ℕ → Prop
  | prefixed {start : ℕ} (occurs : Occurs keyPrefix (lowercase bytes) start)
      (alone : followsIdentifier bytes start = false)
      (token : start + keyPrefix.length < keyTokenEnd bytes start) :
      PlainSecret bytes start (keyTokenEnd bytes start)
  | bearer {start : ℕ} (bearerAt : BearerAt bytes start)
      (unquoted : bytes[bearerToken bytes start]?.any isQuote = false) :
      PlainSecret bytes (bearerToken bytes start) (bareEnd bytes (bearerToken bytes start))
  | quotedBearer {start : ℕ} {quote : UInt8} (bearerAt : BearerAt bytes start)
      (quoted : bytes[bearerToken bytes start]? = some quote) (isQuote : isQuote quote = true) :
      PlainSecret bytes (bearerToken bytes start + 1)
        (skipWhile (· != quote) bytes (bearerToken bytes start + 1))
  | bare {key : List UInt8} {value : ℕ} (valueAt : ValueAt bytes key value)
      (unquoted : bytes[value]?.any Redaction.isQuote = false) :
      PlainSecret bytes value (bareEnd bytes value)

/-- The secrets of a text. -/
inductive Secret (bytes : List UInt8) : ℕ → ℕ → Prop
  | plain {first last : ℕ} (plain : PlainSecret bytes first last) : Secret bytes first last
  | quoted {value : ℕ} {quote : UInt8} (quotedAt : QuotedAt bytes value quote) :
      Secret bytes (value + 1) (value + 1 + closingQuote quote (bytes.drop (value + 1)))
  | authorization {value credentials : ℕ} (form : SchemeValue bytes value credentials) :
      Secret bytes value (bareEnd bytes credentials)

/-- The text behind a place is the other one, with the marker for every range. -/
inductive Splices : Text → ℕ → List (ℕ × ℕ) → Text → Prop
  | rest (t : Text) (cursor : ℕ) : Splices t cursor [] t
  | hide {kept hidden rest output : Text} {cursor : ℕ} {ranges : List (ℕ × ℕ)}
      (nonempty : hidden ≠ [])
      (tail : Splices rest (cursor + byteLen kept + byteLen hidden) ranges output) :
      Splices (kept ++ hidden ++ rest) cursor
        ((cursor + byteLen kept, cursor + byteLen kept + byteLen hidden) :: ranges)
        (kept ++ redactedCredential ++ output)

/-- The redaction ends with a text that keeps everything but some ranges, and every secret lies in
them. -/
def RedactsCompletely (input : Text) : Prop :=
  ∃ ranges output, credentialRanges input = .ok ranges ∧ redactCredentials input = .ok output ∧
    Splices input 0 ranges output ∧
    ∀ first last, Secret (utf8Bytes input) first last → ∀ i, first ≤ i → i < last →
      Covered ranges i

/-! When all of it is hidden. -/

/-- The place lies in a secret of a form that a scanner knows. -/
inductive Shielded (bytes : List UInt8) (i : ℕ) : Prop
  | plain {first last : ℕ} (plain : PlainSecret bytes first last) (le : first ≤ i) (lt : i < last)
  | quoted {value : ℕ} {quote : UInt8} (quotedAt : QuotedAt bytes value quote) (le : value + 1 ≤ i)
      (lt : i < skipWhile (· != quote) bytes (value + 1))
  | scheme {key : List UInt8} {value : ℕ} (valueAt : ValueAt bytes key value)
      (bearer : bearerValue bytes value = true) (le : value ≤ i)
      (lt : i < bareEnd bytes (value + bearerScheme.length))

/-- What stands behind an escaped quote of a value, and what stands behind the scheme of an
authorization that is not `Bearer` and one blank, lies in secrets of other forms. -/
structure TailsShielded (bytes : List UInt8) : Prop where
  quoted : ∀ {value quote i}, QuotedAt bytes value quote →
    skipWhile (· != quote) bytes (value + 1) ≤ i →
    i < value + 1 + closingQuote quote (bytes.drop (value + 1)) → Shielded bytes i
  authorization : ∀ {value credentials i}, SchemeValue bytes value credentials →
    ¬ (bearerValue bytes value = true ∧ credentials = value + bearerScheme.length) →
    bareEnd bytes value ≤ i → i < bareEnd bytes credentials → Shielded bytes i

section
variable {bytes key : List UInt8} {start value i : ℕ} {r : ℕ × ℕ}

/-! Ends of ranges stand beside ASCII bytes. -/

/-- A byte of an ASCII character stands at the place or in front of it, or the bytes end there. -/
def AsciiEdge (bytes : List UInt8) (i : ℕ) : Prop :=
  i = bytes.length ∨ (∃ b, bytes[i]? = some b ∧ b < 128) ∨
    ∃ j b, i = j + 1 ∧ bytes[j]? = some b ∧ b < 128

theorem not_ascii_ofNat {n base : ℕ} (hbase : 128 ≤ base) (hlt : n + base < 256) :
    ¬ UInt8.ofNat (n + base) < 128 := by
  intro hsmall
  rw [UInt8.lt_iff_toNat_lt, UInt8.toNat_ofNat', Nat.mod_eq_of_lt (by omega)] at hsmall
  have hconst : (128 : UInt8).toNat = 128 := rfl
  omega

/-- A character with an ASCII byte is one byte. -/
theorem utf8Size_of_ascii {c : Char} {j : ℕ} {b : UInt8}
    (h : (String.utf8EncodeChar c)[j]? = some b) (hb : b < 128) : c.utf8Size = 1 := by
  rw [← String.length_utf8EncodeChar]
  have hmem := List.mem_of_getElem? h
  unfold String.utf8EncodeChar at hmem ⊢
  dsimp only at hmem ⊢
  split_ifs at hmem ⊢ with h1 h2 h3
  · simp
  · exfalso
    simp only [List.mem_cons, List.not_mem_nil, or_false] at hmem
    rcases hmem with rfl | rfl
    · exact not_ascii_ofNat (by omega) (by omega) hb
    · exact not_ascii_ofNat (by omega) (by omega) hb
  · exfalso
    simp only [List.mem_cons, List.not_mem_nil, or_false] at hmem
    rcases hmem with rfl | rfl | rfl
    · exact not_ascii_ofNat (by omega) (by omega) hb
    · exact not_ascii_ofNat (by omega) (by omega) hb
    · exact not_ascii_ofNat (by omega) (by omega) hb
  · exfalso
    simp only [List.mem_cons, List.not_mem_nil, or_false] at hmem
    rcases hmem with rfl | rfl | rfl | rfl
    · exact not_ascii_ofNat (by omega) (by omega) hb
    · exact not_ascii_ofNat (by omega) (by omega) hb
    · exact not_ascii_ofNat (by omega) (by omega) hb
    · exact not_ascii_ofNat (by omega) (by omega) hb

theorem utf8Bytes_cons (c : Char) (t : Text) :
    utf8Bytes (c :: t) = String.utf8EncodeChar c ++ utf8Bytes t := List.flatMap_cons ..

@[simp] theorem utf8Bytes_length (t : Text) : (utf8Bytes t).length = byteLen t := by
  induction t with
  | nil => rfl
  | cons c t ih =>
    rw [utf8Bytes_cons, List.length_append, ih, String.length_utf8EncodeChar, byteLen_cons]

/-- Beside an ASCII byte a text can be cut. -/
theorem AsciiEdge.isCharBoundary {t : Text} (h : AsciiEdge (utf8Bytes t) i) :
    isCharBoundary i t = true := by
  induction t generalizing i with
  | nil =>
    rcases h with rfl | ⟨b, hb, -⟩ | ⟨j, b, -, hb, -⟩
    · rfl
    · exact absurd hb (by simp [utf8Bytes])
    · exact absurd hb (by simp [utf8Bytes])
  | cons c t ih =>
    cases i with
    | zero => rfl
    | succ n =>
      have hsize := Char.utf8Size_pos c
      have hlength := String.length_utf8EncodeChar c
      suffices hcut : c.utf8Size ≤ n + 1 ∧
          DeepseekScience.isCharBoundary (n + 1 - c.utf8Size) t = true by
        rw [DeepseekScience.isCharBoundary, hcut.2, decide_eq_true hcut.1, Bool.and_true]
      rw [utf8Bytes_cons] at h
      rcases h with h | ⟨b, hb, hascii⟩ | ⟨j, b, hj, hb, hascii⟩
      · rw [List.length_append, hlength] at h
        exact ⟨by omega, ih (Or.inl (by omega))⟩
      · rcases Nat.lt_or_ge (n + 1) c.utf8Size with hlt | hge
        · rw [List.getElem?_append_left (by omega)] at hb
          have hone := utf8Size_of_ascii hb hascii
          omega
        · rw [List.getElem?_append_right (by omega), hlength] at hb
          exact ⟨hge, ih (Or.inr (Or.inl ⟨b, hb, hascii⟩))⟩
      · obtain rfl : n = j := by omega
        rcases Nat.lt_or_ge n c.utf8Size with hlt | hge
        · rw [List.getElem?_append_left (by omega)] at hb
          have hone := utf8Size_of_ascii hb hascii
          obtain rfl : n = 0 := by omega
          rw [hone]
          exact ⟨le_rfl, by cases t <;> rfl⟩
        · rw [List.getElem?_append_right (by omega), hlength] at hb
          exact ⟨by omega, ih (Or.inr (Or.inr ⟨n - c.utf8Size, b, by omega, hb, hascii⟩))⟩

/-! Walks end beside ASCII bytes. -/

theorem edge_skipWhile {p : UInt8 → Bool} (hp : ∀ b, p b = false → b < 128) (hi : i ≤ bytes.length) :
    AsciiEdge bytes (skipWhile p bytes i) := by
  rcases Nat.lt_or_ge (skipWhile p bytes i) bytes.length with hlt | hge
  · have hb := List.getElem?_eq_getElem hlt
    exact Or.inr (Or.inl ⟨_, hb, hp _ (at_skipWhile hb)⟩)
  · exact Or.inl (le_antisymm (skipWhile_le hi) hge)

/-- Behind a walk over ASCII bytes that begins behind one. -/
theorem edge_behind {p : UInt8 → Bool} {b : UInt8} (hp : ∀ b, p b = true → b < 128)
    (hb : bytes[i]? = some b) (hascii : b < 128) : AsciiEdge bytes (skipWhile p bytes (i + 1)) := by
  have hle := le_skipWhile p bytes (i + 1)
  have hlength : i < bytes.length := (List.getElem?_eq_some_iff.mp hb).1
  have hend := skipWhile_le (p := p) (show i + 1 ≤ bytes.length by omega)
  obtain ⟨j, hj⟩ : ∃ j, skipWhile p bytes (i + 1) = j + 1 := ⟨_, (Nat.sub_add_cancel (by omega)).symm⟩
  rcases Nat.eq_or_lt_of_le (show i ≤ j by omega) with rfl | hlt
  · exact Or.inr (Or.inr ⟨i, b, hj, hb, hascii⟩)
  · have hbyte := List.getElem?_eq_getElem (show j < bytes.length by omega)
    exact Or.inr (Or.inr ⟨j, _, hj, hbyte,
      hp _ (of_lt_skipWhile (show i + 1 ≤ j by omega) (by omega) hbyte)⟩)

theorem ascii_of_isAsciiWhitespace {b : UInt8} (h : isAsciiWhitespace b = true) : b < 128 := by
  grind [isAsciiWhitespace]

theorem ascii_of_isSeparator {b : UInt8} (h : isSeparator b = true) : b < 128 := by
  grind [isSeparator]

theorem ascii_of_isQuote {b : UInt8} (h : isQuote b = true) : b < 128 := by
  grind [isQuote]

theorem ascii_of_not_isBare {b : UInt8} (h : isBare b = false) : b < 128 := by
  grind [isBare, isAsciiWhitespace, isUnquotedSecretDelimiter]

theorem ascii_of_isTokenByte {b : UInt8} (h : isTokenByte b = true) : b < 128 := by
  grind [isTokenByte, isAsciiAlphanumericByte]

theorem ascii_of_lowercaseByte {b : UInt8} (h : lowercaseByte b < 128) : b < 128 := by
  grind [lowercaseByte]

/-! What the scanners take. -/

@[simp] theorem lowercase_length : (lowercase bytes).length = bytes.length := List.length_map ..

theorem nonEmpty_eq_some {first last : ℕ} :
    nonEmpty first last = some r ↔ r = (first, last) ∧ first < last := by
  unfold nonEmpty
  split_ifs with h
  · rw [Option.some.injEq]
    exact ⟨fun hr => ⟨hr.symm, h⟩, fun hr => hr.1.symm⟩
  · exact ⟨fun hr => absurd hr (by simp), fun hr => absurd hr.2 h⟩

/-- The two forms of a value. -/
theorem tokenRange_eq_some {token behind : ℕ} : tokenRange bytes token behind = some r ↔
    (∃ quote, bytes[token]? = some quote ∧ isQuote quote = true ∧
      r = (token + 1, skipWhile (· != quote) bytes (token + 1)) ∧ r.1 < r.2) ∨
    (bytes[token]?.any isQuote = false ∧ r = (token, skipWhile isBare bytes behind) ∧
      r.1 < r.2) := by
  have hpair : ∀ first last : ℕ, r = (first, last) ∧ r.1 < r.2 ↔ r = (first, last) ∧ first < last :=
    fun first last => and_congr_right fun hr => by rw [hr]
  unfold tokenRange
  cases hbyte : bytes[token]? with
  | none =>
    show nonEmpty token (skipWhile isBare bytes behind) = some r ↔ _
    rw [nonEmpty_eq_some, ← hpair]
    simp
  | some b =>
    cases hquote : isQuote b with
    | true =>
      rw [show (some b).filter isQuote = some b by simp [Option.filter, hquote]]
      show nonEmpty (token + 1) (skipWhile (· != b) bytes (token + 1)) = some r ↔ _
      rw [nonEmpty_eq_some, ← hpair]
      simp [hquote]
    | false =>
      rw [show (some b).filter isQuote = none by simp [Option.filter, hquote]]
      show nonEmpty token (skipWhile isBare bytes behind) = some r ↔ _
      rw [nonEmpty_eq_some, ← hpair]
      simp [hquote]

theorem tokenRange_quoted {token behind : ℕ} {quote : UInt8} (hquote : bytes[token]? = some quote)
    (hkind : isQuote quote = true) (hle : token + 1 ≤ i)
    (hlt : i < skipWhile (· != quote) bytes (token + 1)) :
    tokenRange bytes token behind =
      some (token + 1, skipWhile (· != quote) bytes (token + 1)) := by
  apply tokenRange_eq_some.mpr
  exact Or.inl ⟨quote, hquote, hkind, rfl, lt_of_le_of_lt hle hlt⟩

theorem tokenRange_bare {token behind : ℕ} (hquote : bytes[token]?.any isQuote = false)
    (hle : token ≤ i) (hlt : i < skipWhile isBare bytes behind) :
    tokenRange bytes token behind = some (token, skipWhile isBare bytes behind) := by
  apply tokenRange_eq_some.mpr
  exact Or.inr ⟨hquote, rfl, lt_of_le_of_lt hle hlt⟩

/-- A range that a scanner takes. -/
inductive Caught (bytes : List UInt8) (r : ℕ × ℕ) : Prop
  | named {key : List UInt8} {start : ℕ} (known : key ∈ credentialKeys)
      (occurs : Occurs key (lowercase bytes) start) (range : namedSecretRange bytes key start = some r)
  | bearer {start : ℕ} (occurs : Occurs bearerMarker (lowercase bytes) start)
      (range : bearerRange bytes start = some r)
  | prefixed {start : ℕ} (occurs : Occurs keyPrefix (lowercase bytes) start)
      (range : prefixedTokenRange bytes start = some r)

/-- Where the scanner of names looks for the end of a value without quotes. -/
def bareStart (bytes : List UInt8) (value : ℕ) : ℕ :=
  if bearerValue bytes value then value + bearerScheme.length else value

theorem namedSecretRange_eq_some : namedSecretRange bytes key start = some r ↔
    followsIdentifier bytes start = false ∧
    (lowercase bytes)[start + key.length]?.any isIdentifierByte = false ∧
    ∃ value, valueCursor bytes (start + key.length) = some value ∧
      tokenRange bytes value (bareStart bytes value) = some r := by
  unfold namedSecretRange bareStart
  cases hbefore : followsIdentifier bytes start with
  | true => simp
  | false =>
    cases hafter : (lowercase bytes)[start + key.length]?.any isIdentifierByte with
    | true => simp [hafter]
    | false => simp [hafter, Option.bind_eq_some_iff]

theorem bearerRange_eq_some : bearerRange bytes start = some r ↔
    followsIdentifier bytes start = false ∧
    bytes[start + bearerMarker.length]?.any isAsciiWhitespace = true ∧
    tokenRange bytes (bearerToken bytes start) (bearerToken bytes start) = some r := by
  unfold bearerRange bearerToken
  cases hbefore : followsIdentifier bytes start with
  | true => simp
  | false =>
    cases hspace : bytes[start + bearerMarker.length]?.any isAsciiWhitespace with
    | false => simp [hspace]
    | true => simp [hspace]

theorem prefixedTokenRange_eq_some : prefixedTokenRange bytes start = some r ↔
    followsIdentifier bytes start = false ∧
    start + keyPrefix.length < keyTokenEnd bytes start ∧ r = (start, keyTokenEnd bytes start) := by
  unfold prefixedTokenRange keyTokenEnd
  cases hbefore : followsIdentifier bytes start with
  | true => simp
  | false =>
    by_cases htoken :
        start + keyPrefix.length < skipWhile isTokenByte bytes (start + keyPrefix.length)
    · simp [htoken, eq_comm]
    · simp [htoken]

theorem Caught.nonempty (h : Caught bytes r) : r.1 < r.2 := by
  have htoken : ∀ {token behind}, tokenRange bytes token behind = some r → r.1 < r.2 := by
    intro token behind hr
    rcases tokenRange_eq_some.mp hr with ⟨-, -, -, -, hlt⟩ | ⟨-, -, hlt⟩
    · exact hlt
    · exact hlt
  cases h with
  | named known occurs range =>
    obtain ⟨-, -, value, -, hr⟩ := namedSecretRange_eq_some.mp range
    exact htoken hr
  | bearer occurs range => exact htoken (bearerRange_eq_some.mp range).2.2
  | @prefixed start occurs range =>
    obtain ⟨-, hlast, rfl⟩ := prefixedTokenRange_eq_some.mp range
    exact lt_of_le_of_lt (Nat.le_add_right start keyPrefix.length) hlast

/-- What a scanner takes is a secret of a form that it knows. -/
theorem Caught.shielded (h : Caught bytes r) (hle : r.1 ≤ i) (hlt : i < r.2) : Shielded bytes i := by
  cases h with
  | named known occurs range =>
    obtain ⟨hbefore, hafter, value, hvalue, hr⟩ := namedSecretRange_eq_some.mp range
    have hat : ValueAt bytes _ value := ⟨known, _, occurs, hbefore, hafter, hvalue⟩
    rcases tokenRange_eq_some.mp hr with ⟨quote, hquote, hkind, rfl, -⟩ | ⟨hquote, rfl, -⟩
    · exact Shielded.quoted ⟨⟨_, hat⟩, hquote, hkind⟩ hle hlt
    · unfold bareStart at hlt
      split_ifs at hlt with hbearer
      · exact Shielded.scheme hat hbearer hle hlt
      · exact Shielded.plain (PlainSecret.bare hat hquote) hle hlt
  | bearer occurs range =>
    obtain ⟨hbefore, hspace, hr⟩ := bearerRange_eq_some.mp range
    have hat : BearerAt bytes _ := ⟨occurs, hbefore, hspace⟩
    rcases tokenRange_eq_some.mp hr with ⟨quote, hquote, hkind, rfl, -⟩ | ⟨hquote, rfl, -⟩
    · exact Shielded.plain (PlainSecret.quotedBearer hat hquote hkind) hle hlt
    · exact Shielded.plain (PlainSecret.bearer hat hquote) hle hlt
  | prefixed occurs range =>
    obtain ⟨hbefore, htoken, rfl⟩ := prefixedTokenRange_eq_some.mp range
    exact Shielded.plain (PlainSecret.prefixed occurs hbefore htoken) hle hlt

/-- A byte of a pattern of lower case stands in the text in either case. -/
theorem byte_of_occurs {pattern : List UInt8} {j : ℕ} {c : UInt8}
    (h : Occurs pattern (lowercase bytes) start) (hc : pattern[j]? = some c) :
    ∃ b, bytes[start + j]? = some b ∧ lowercaseByte b = c := by
  have hj : j < pattern.length := (List.getElem?_eq_some_iff.mp hc).1
  have hbyte := h.getElem? hj
  rw [hc, lowercase, List.getElem?_map, Option.map_eq_some_iff] at hbyte
  exact hbyte

theorem occurs_of_bearerValue (h : bearerValue bytes value = true) :
    Occurs bearerScheme (lowercase bytes) value := List.isPrefixOf_iff_prefix.mp h

/-- A value of the `bearer` scheme has no quote in front. -/
theorem unquoted_of_bearerValue (h : bearerValue bytes value = true) :
    bytes[value]?.any isQuote = false := by
  obtain ⟨b, hb, hlower⟩ := byte_of_occurs (occurs_of_bearerValue h)
    (show bearerScheme[0]? = some 0x62 by decide)
  rw [Nat.add_zero] at hb
  rw [hb]
  show isQuote b = false
  grind [isQuote, lowercaseByte]

/-- The scheme of bearers ends the bare value. -/
theorem bareEnd_of_bearerValue (h : bearerValue bytes value = true) :
    bareEnd bytes value ≤ value + 6 := by
  obtain ⟨b, hb, hlower⟩ := byte_of_occurs (occurs_of_bearerValue h)
    (show bearerScheme[6]? = some 0x20 by decide)
  apply skipWhile_le_of_not (Nat.le_add_right value 6) hb
  grind [isBare, isAsciiWhitespace, lowercaseByte]

/-- The bare value lies in what is taken for one. -/
theorem bareEnd_le_bareStart :
    bareEnd bytes value ≤ skipWhile isBare bytes (bareStart bytes value) := by
  unfold bareStart
  split_ifs with hbearer
  · have hend := bareEnd_of_bearerValue hbearer
    have hlength : bearerScheme.length = 7 := by decide
    have hle := le_skipWhile isBare bytes (value + bearerScheme.length)
    omega
  · exact le_rfl

theorem ValueAt.caught (h : ValueAt bytes key value)
    (hr : tokenRange bytes value (bareStart bytes value) = some r) : Caught bytes r := by
  obtain ⟨hknown, start, hoccurs, hbefore, hafter, hvalue⟩ := h
  exact Caught.named hknown hoccurs
    (namedSecretRange_eq_some.mpr ⟨hbefore, hafter, value, hvalue, hr⟩)

theorem BearerAt.caught (h : BearerAt bytes start)
    (hr : tokenRange bytes (bearerToken bytes start) (bearerToken bytes start) = some r) :
    Caught bytes r :=
  Caught.bearer h.occurs (bearerRange_eq_some.mpr ⟨h.alone, h.space, hr⟩)

/-- A secret of a form that a scanner knows is taken. -/
theorem Shielded.caught (h : Shielded bytes i) : ∃ r, Caught bytes r ∧ r.1 ≤ i ∧ i < r.2 := by
  cases h with
  | plain plain le lt =>
    cases plain with
    | prefixed occurs alone token =>
      exact ⟨_, Caught.prefixed occurs (prefixedTokenRange_eq_some.mpr ⟨alone, token, rfl⟩), le, lt⟩
    | bearer bearerAt unquoted =>
      exact ⟨_, bearerAt.caught (tokenRange_bare unquoted le lt), le, lt⟩
    | quotedBearer bearerAt quoted isQuote =>
      exact ⟨_, bearerAt.caught (tokenRange_quoted quoted isQuote le lt), le, lt⟩
    | bare valueAt unquoted =>
      have hlt := lt_of_lt_of_le lt bareEnd_le_bareStart
      exact ⟨_, valueAt.caught (tokenRange_bare unquoted le hlt), le, hlt⟩
  | quoted quotedAt le lt =>
    obtain ⟨⟨key, hat⟩, hquote, hkind⟩ := quotedAt
    exact ⟨_, hat.caught (tokenRange_quoted hquote hkind le lt), le, lt⟩
  | @scheme key value valueAt bearer le lt =>
    have hstart : bareStart bytes value = value + bearerScheme.length := if_pos bearer
    have hlt : i < skipWhile isBare bytes (bareStart bytes value) := by
      rw [hstart]
      exact lt
    exact ⟨_, valueAt.caught (tokenRange_bare (unquoted_of_bearerValue bearer) le hlt), le, hlt⟩

/-! The ends of what the scanners take. -/

theorem valueCursor_edge {keyEnd : ℕ} (h : valueCursor bytes keyEnd = some value) :
    value ≤ bytes.length ∧ AsciiEdge bytes value := by
  unfold valueCursor at h
  dsimp only at h
  split at h
  · rename_i b hb
    split_ifs at h with hseparator
    obtain rfl := Option.some.inj h
    have hlength := (List.getElem?_eq_some_iff.mp hb).1
    exact ⟨skipWhile_le hlength, edge_behind (fun _ => ascii_of_isAsciiWhitespace) hb
      (ascii_of_isSeparator hseparator)⟩
  · exact absurd h (by simp)

theorem tokenRange_edges {token behind : ℕ} (h : tokenRange bytes token behind = some r)
    (htoken : AsciiEdge bytes token) (hbehind : behind ≤ bytes.length) :
    AsciiEdge bytes r.1 ∧ AsciiEdge bytes r.2 := by
  rcases tokenRange_eq_some.mp h with ⟨quote, hquote, hkind, rfl, -⟩ | ⟨hquote, rfl, -⟩
  · have hlength := (List.getElem?_eq_some_iff.mp hquote).1
    have hascii := ascii_of_isQuote hkind
    constructor
    · exact Or.inr (Or.inr ⟨token, quote, rfl, hquote, hascii⟩)
    · apply edge_skipWhile _ hlength
      intro b hb
      obtain rfl : b = quote := by simpa using hb
      exact hascii
  · exact ⟨htoken, edge_skipWhile (fun _ => ascii_of_not_isBare) hbehind⟩

/-- Every range ends beside ASCII bytes. -/
theorem Caught.edges (h : Caught bytes r) : AsciiEdge bytes r.1 ∧ AsciiEdge bytes r.2 := by
  cases h with
  | named known occurs range =>
    obtain ⟨-, -, value, hvalue, hr⟩ := namedSecretRange_eq_some.mp range
    obtain ⟨hlength, hedge⟩ := valueCursor_edge hvalue
    apply tokenRange_edges hr hedge
    unfold bareStart
    split_ifs with hbearer
    · have hend := (occurs_of_bearerValue hbearer).le_length (by decide)
      rw [lowercase_length] at hend
      exact hend
    · exact hlength
  | @bearer start occurs range =>
    obtain ⟨-, hspace, hr⟩ := bearerRange_eq_some.mp range
    obtain ⟨b, hb, hlower⟩ := byte_of_occurs occurs (show bearerMarker[5]? = some 0x72 by decide)
    have hend := occurs.le_length (by decide)
    rw [lowercase_length] at hend
    have hascii : b < 128 := ascii_of_lowercaseByte (by rw [hlower]; decide)
    have hedge : AsciiEdge bytes (bearerToken bytes start) :=
      edge_behind (fun _ => ascii_of_isAsciiWhitespace) hb hascii
    exact tokenRange_edges hr hedge (skipWhile_le hend)
  | @prefixed start occurs range =>
    obtain ⟨-, htoken, rfl⟩ := prefixedTokenRange_eq_some.mp range
    obtain ⟨b, hb, hlower⟩ := byte_of_occurs occurs (show keyPrefix[0]? = some 0x73 by decide)
    have hend := occurs.le_length (by decide)
    rw [lowercase_length] at hend
    have hascii : b < 128 := ascii_of_lowercaseByte (by rw [hlower]; decide)
    constructor
    · exact Or.inr (Or.inl ⟨b, hb, hascii⟩)
    · have hlast := skipWhile_le (p := isTokenByte) hend
      obtain ⟨j, hj⟩ : ∃ j, keyTokenEnd bytes start = j + 1 :=
        ⟨_, (Nat.sub_add_cancel (by omega)).symm⟩
      have hbyte := List.getElem?_eq_getElem (show j < bytes.length by unfold keyTokenEnd at hj; omega)
      refine Or.inr (Or.inr ⟨j, _, hj, hbyte, ascii_of_isTokenByte ?_⟩)
      exact of_lt_skipWhile (show start + keyPrefix.length ≤ j by omega)
        (show j < keyTokenEnd bytes start by omega) hbyte

/-! The collected ranges. -/

theorem borderless_markers :
    ∀ marker ∈ bearerMarker :: keyPrefix :: credentialKeys, marker ≠ [] ∧ Borderless marker := by
  have hall : ∀ marker ∈ bearerMarker :: keyPrefix :: credentialKeys, marker ≠ [] ∧
      ∀ k < marker.length, 0 < k → ¬ marker.drop k <+: marker := by
    decide
  intro marker hmarker
  obtain ⟨hne, hborder⟩ := hall marker hmarker
  exact ⟨hne, fun k hpos hlt => hborder k hlt hpos⟩

/-- A scanner ends, with the ranges at all places of its marker. -/
theorem collectRanges_spec {marker : List UInt8} {range : ℕ → Option (ℕ × ℕ)}
    (hmarker : marker ∈ bearerMarker :: keyPrefix :: credentialKeys) :
    ∃ ranges, collectRanges bytes marker range = .ok ranges ∧
      ∀ r, r ∈ ranges ↔ ∃ start, Occurs marker (lowercase bytes) start ∧ range start = some r := by
  obtain ⟨hne, hborder⟩ := borderless_markers marker hmarker
  obtain ⟨places, hplaces, hmem⟩ := search_spec (l := lowercase bytes) hne hborder
    (Nat.zero_le _) (show (lowercase bytes).length < bytes.length + 1 + 0 by simp)
  refine ⟨places.filterMap range, by rw [collectRanges, hplaces], fun r => ?_⟩
  rw [List.mem_filterMap]
  apply exists_congr
  intro start
  rw [hmem]
  simp

theorem collectNamedSecretRanges_spec {keys : List (List UInt8)} (hkeys : keys ⊆ credentialKeys) :
    ∃ ranges, collectNamedSecretRanges bytes keys = .ok ranges ∧
      ∀ r, r ∈ ranges ↔ ∃ key ∈ keys, ∃ start, Occurs key (lowercase bytes) start ∧
        namedSecretRange bytes key start = some r := by
  induction keys with
  | nil => exact ⟨[], rfl, by simp⟩
  | cons key keys ih =>
    obtain ⟨others, hothers, hmem⟩ := ih fun k hk => hkeys (List.mem_cons_of_mem _ hk)
    obtain ⟨ranges, hranges, hmem'⟩ := @collectRanges_spec bytes key (namedSecretRange bytes key)
      (List.mem_cons_of_mem _ (List.mem_cons_of_mem _ (hkeys (List.mem_cons_self ..))))
    refine ⟨ranges ++ others, by rw [collectNamedSecretRanges, hranges, hothers]; rfl, fun r => ?_⟩
    rw [List.mem_append, hmem, hmem', List.exists_mem_cons_iff]

/-- The ranges are found, and their union is what the scanners take. -/
theorem credentialRanges_spec (input : Text) : ∃ ranges, credentialRanges input = .ok ranges ∧
    Apart ranges ∧ (∀ i, Covered ranges i ↔ Shielded (utf8Bytes input) i) ∧
    ∀ r ∈ ranges, isCharBoundary r.1 input = true ∧ isCharBoundary r.2 input = true := by
  obtain ⟨named, hnamed, hmem⟩ :=
    @collectNamedSecretRanges_spec (utf8Bytes input) _ (List.Subset.refl credentialKeys)
  obtain ⟨bearer, hbearer, hmem'⟩ := @collectRanges_spec (utf8Bytes input) bearerMarker
    (bearerRange (utf8Bytes input)) (List.mem_cons_self ..)
  obtain ⟨prefixed, hprefixed, hmem''⟩ := @collectRanges_spec (utf8Bytes input) keyPrefix
    (prefixedTokenRange (utf8Bytes input)) (List.mem_cons_of_mem _ (List.mem_cons_self ..))
  let found := (named ++ bearer ++ prefixed).insertionSort fun a b => toLex a ≤ toLex b
  have hcaught : ∀ r, r ∈ found ↔ Caught (utf8Bytes input) r := by
    intro r
    rw [List.mem_insertionSort, List.mem_append, List.mem_append, hmem, hmem', hmem'']
    constructor
    · rintro ((⟨key, hkey, start, hoccurs, hr⟩ | ⟨start, hoccurs, hr⟩) | ⟨start, hoccurs, hr⟩)
      · exact Caught.named hkey hoccurs hr
      · exact Caught.bearer hoccurs hr
      · exact Caught.prefixed hoccurs hr
    · intro h
      cases h with
      | named known occurs range => exact Or.inl (Or.inl ⟨_, known, _, occurs, range⟩)
      | bearer occurs range => exact Or.inl (Or.inr ⟨_, occurs, range⟩)
      | prefixed occurs range => exact Or.inr ⟨_, occurs, range⟩
  have hordered : Ordered found := by
    constructor
    · have hsorted : found.Pairwise fun a b => toLex a ≤ toLex b := List.pairwise_insertionSort ..
      apply hsorted.imp
      intro a b hab
      rcases Prod.Lex.le_iff.mp hab with hlt | ⟨heq, -⟩
      · exact le_of_lt hlt
      · exact le_of_eq heq
    · exact fun r hr => ((hcaught r).mp hr).nonempty
  refine ⟨merge found, ?_, apart_merge hordered, fun i => ?_, fun r hr => ?_⟩
  · show (collectNamedSecretRanges (utf8Bytes input) credentialKeys >>= _) = _
    rw [hnamed]
    show (collectRanges _ _ _ >>= _) = _
    rw [hbearer]
    show (collectRanges _ _ _ >>= _) = _
    rw [hprefixed]
    rfl
  · rw [covered_merge hordered]
    constructor
    · rintro ⟨r, hr, hle, hlt⟩
      exact ((hcaught r).mp hr).shielded hle hlt
    · intro h
      obtain ⟨r, hr, hle, hlt⟩ := h.caught
      exact ⟨r, (hcaught r).mpr hr, hle, hlt⟩
  · obtain ⟨⟨a, ha, hfirst⟩, b, hb, hsecond⟩ := ends_of_mem_merge hr
    rw [← hfirst, ← hsecond]
    exact ⟨((hcaught a).mp ha).edges.1.isCharBoundary, ((hcaught b).mp hb).edges.2.isCharBoundary⟩

end

/-! Putting the text together. -/

/-- A text falls apart at a boundary. -/
theorem exists_append_of_isCharBoundary {n : ℕ} {t : Text} (h : isCharBoundary n t = true) :
    ∃ x y, t = x ++ y ∧ byteLen x = n := by
  induction t generalizing n with
  | nil =>
    cases n with
    | zero => exact ⟨[], [], rfl, rfl⟩
    | succ n => cases h
  | cons c t ih =>
    cases n with
    | zero => exact ⟨[], c :: t, rfl, rfl⟩
    | succ n =>
      rw [isCharBoundary, Bool.and_eq_true, decide_eq_true_eq] at h
      obtain ⟨x, y, rfl, hx⟩ := ih h.2
      refine ⟨c :: x, y, rfl, ?_⟩
      rw [byteLen_cons, hx]
      omega

/-- Behind one boundary a text falls apart at a later one. -/
theorem exists_append_of_boundaries {n m : ℕ} {x t : Text} (hx : byteLen x = n) (hle : n ≤ m)
    (h : isCharBoundary m (x ++ t) = true) : ∃ y z, t = y ++ z ∧ byteLen (x ++ y) = m := by
  induction x generalizing n m with
  | nil =>
    obtain ⟨y, z, rfl, hy⟩ := exists_append_of_isCharBoundary h
    exact ⟨y, z, rfl, hy⟩
  | cons c x ih =>
    have hsize := Char.utf8Size_pos c
    rw [byteLen_cons] at hx
    obtain ⟨k, rfl⟩ : ∃ k, m = k + 1 := ⟨m - 1, by omega⟩
    rw [List.cons_append, isCharBoundary, Bool.and_eq_true, decide_eq_true_eq] at h
    obtain ⟨y, z, rfl, hy⟩ := ih rfl (by omega) h.2
    refine ⟨y, z, rfl, ?_⟩
    rw [List.cons_append, byteLen_cons, hy]
    omega

theorem slice_eq {x y z : Text} {first last : ℕ} (hx : byteLen x = first)
    (hy : byteLen (x ++ y) = last) : slice (x ++ y ++ z) first last = .ok y := by
  rw [byteLen_append] at hy
  have hlast : isCharBoundary last (x ++ y ++ z) = true := by
    rw [← hy, ← byteLen_append]
    exact isCharBoundary_append ..
  rw [slice, if_pos, List.append_assoc, ← hx, dropBytes_append,
    show last - byteLen x = byteLen y by omega, takeBytes_append]
  refine ⟨by omega, ?_, hlast⟩
  rw [List.append_assoc, ← hx]
  exact isCharBoundary_append ..

/-- The text behind a cut is put together, by induction on the ranges behind it. -/
theorem spliceFrom_spec {ranges : List (ℕ × ℕ)} (hapart : Apart ranges) {x t : Text}
    (hcut : ∀ r ∈ ranges, isCharBoundary r.1 (x ++ t) = true ∧ isCharBoundary r.2 (x ++ t) = true)
    (hbehind : ∀ r ∈ ranges, byteLen x ≤ r.1) :
    ∃ output, spliceFrom (x ++ t) (byteLen x) ranges = .ok output ∧
      Splices t (byteLen x) ranges output := by
  induction ranges generalizing x t with
  | nil =>
    refine ⟨t, ?_, Splices.rest ..⟩
    have hall := slice_eq (x := x) (y := t) (z := []) rfl rfl
    rw [List.append_nil] at hall
    exact hall
  | cons r ranges ih =>
    obtain ⟨hgaps, hrest⟩ := List.pairwise_cons.mp hapart.gaps
    obtain ⟨hnonempty, hrest'⟩ := List.forall_mem_cons.mp hapart.nonempty
    obtain ⟨hfirst, hlast⟩ := hcut r (List.mem_cons_self ..)
    obtain ⟨kept, t, rfl, hkept⟩ := exists_append_of_boundaries rfl
      (hbehind r (List.mem_cons_self ..)) hfirst
    rw [← List.append_assoc] at hlast
    obtain ⟨hidden, t, rfl, hhidden⟩ := exists_append_of_boundaries hkept (le_of_lt hnonempty) hlast
    have hwhole : x ++ (kept ++ (hidden ++ t)) = x ++ kept ++ hidden ++ t := by
      simp only [List.append_assoc]
    rw [hwhole] at hcut ⊢
    obtain ⟨output, houtput, hsplices⟩ := ih ⟨hrest, hrest'⟩
      (fun s hs => hcut s (List.mem_cons_of_mem _ hs))
      (fun s hs => by rw [hhidden]; exact le_of_lt (hgaps s hs))
    refine ⟨kept ++ redactedCredential ++ output, ?_, ?_⟩
    · have hslice : slice (x ++ kept ++ hidden ++ t) (byteLen x) r.1 = .ok kept := by
        rw [List.append_assoc (x ++ kept)]
        exact slice_eq rfl hkept
      rw [hhidden] at houtput
      rw [spliceFrom, hslice]
      show (spliceFrom _ r.2 ranges >>= _) = _
      rw [houtput]
      rfl
    · rw [← List.append_assoc]
      rw [byteLen_append, byteLen_append] at hhidden
      rw [byteLen_append] at hkept
      have hr : r = (byteLen x + byteLen kept, byteLen x + byteLen kept + byteLen hidden) := by
        rw [hhidden, hkept]
      rw [hr]
      apply Splices.hide
      · rintro rfl
        rw [byteLen_nil] at hhidden
        omega
      · rw [← byteLen_append, ← byteLen_append]
        exact hsplices

/-- The redaction never fails, and keeps everything but its ranges. -/
theorem redactCredentials_spec (input : Text) : ∃ ranges output,
    credentialRanges input = .ok ranges ∧ redactCredentials input = .ok output ∧
    Splices input 0 ranges output ∧ ∀ i, Covered ranges i ↔ Shielded (utf8Bytes input) i := by
  obtain ⟨ranges, hranges, hapart, hcovered, hcut⟩ := credentialRanges_spec input
  obtain ⟨output, houtput, hsplices⟩ :=
    spliceFrom_spec (x := []) hapart hcut fun r _ => Nat.zero_le r.1
  refine ⟨ranges, output, hranges, ?_, hsplices, hcovered⟩
  unfold redactCredentials
  rw [hranges]
  show (if ranges.isEmpty then Except.ok input else spliceFrom input 0 ranges) = .ok output
  split_ifs with hempty
  · obtain rfl := List.isEmpty_iff.mp hempty
    cases hsplices
    rfl
  · exact houtput

/-- The redaction hides every secret exactly when the tails that its scanners do not look for lie
in secrets that they do. -/
theorem redactCredentials_completely_iff (input : Text) :
    RedactsCompletely input ↔ TailsShielded (utf8Bytes input) := by
  obtain ⟨ranges, output, hranges, houtput, hsplices, hcovered⟩ := redactCredentials_spec input
  constructor
  · rintro ⟨ranges', output', hranges', -, -, hall⟩
    obtain rfl : ranges = ranges' := Except.ok.inj (hranges.symm.trans hranges')
    constructor
    · intro value quote i hquoted hle hlt
      apply (hcovered i).mp
      exact hall _ _ (Secret.quoted hquoted) i (le_trans (le_skipWhile ..) hle) hlt
    · intro value credentials i hform _ hle hlt
      apply (hcovered i).mp
      exact hall _ _ (Secret.authorization hform) i (le_trans (le_skipWhile ..) hle) hlt
  · intro htails
    refine ⟨ranges, output, hranges, houtput, hsplices, fun first last hsecret i hle hlt => ?_⟩
    apply (hcovered i).mpr
    cases hsecret with
    | plain plain => exact Shielded.plain plain hle hlt
    | @quoted value quote quotedAt =>
      rcases Nat.lt_or_ge i (skipWhile (· != quote) (utf8Bytes input) (value + 1)) with hin | hout
      · exact Shielded.quoted quotedAt hle hin
      · exact htails.quoted quotedAt hout hlt
    | @authorization _ credentials form =>
      rcases Nat.lt_or_ge i (bareEnd (utf8Bytes input) first) with hin | hout
      · exact Shielded.plain (PlainSecret.bare form.valueAt form.unquoted) hle hin
      · by_cases hbearer : bearerValue (utf8Bytes input) first = true ∧
            credentials = first + bearerScheme.length
        · apply Shielded.scheme form.valueAt hbearer.1 hle
          rw [← hbearer.2]
          exact hlt
        · exact htails.authorization form hbearer hout hlt

/-- The credentials of another scheme stay in the text. -/
theorem basic_credentials_stay :
    redactCredentials "Authorization: Basic dXNlcjpwYXNz".toList =
      .ok "Authorization: [REDACTED] dXNlcjpwYXNz".toList ∧
    ¬ RedactsCompletely "Authorization: Basic dXNlcjpwYXNz".toList := by
  have hranges : credentialRanges "Authorization: Basic dXNlcjpwYXNz".toList = .ok [(15, 20)] := by
    decide +kernel
  constructor
  · decide +kernel
  rintro ⟨ranges, output, hranges', -, -, hall⟩
  obtain rfl : [(15, 20)] = ranges := Except.ok.inj (hranges.symm.trans hranges')
  have hform : SchemeValue (utf8Bytes "Authorization: Basic dXNlcjpwYXNz".toList) 15 21 := by
    refine ⟨⟨by decide +kernel, 0, ?_⟩, ?_, ?_, ?_, ?_, ?_⟩
    · unfold Occurs
      decide +kernel
    all_goals decide +kernel
  obtain ⟨r, hr, hle, hlt⟩ := hall _ _ (Secret.authorization hform) 21 (by norm_num)
    (by decide +kernel)
  obtain rfl := List.mem_singleton.mp hr
  exact absurd hlt (by norm_num)

end DeepseekScience.Redaction
