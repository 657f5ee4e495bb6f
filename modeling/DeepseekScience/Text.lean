import Mathlib.Data.List.DropRight
import Mathlib.Data.List.TakeWhile
import Mathlib.Tactic

/-! Text as the sequence of its Unicode scalar values, with the string operations
that the modelled sources use. Lengths that the sources measure in bytes count UTF-8
bytes; a byte offset is only ever taken at a character boundary. -/
namespace DeepseekScience

abbrev Text := List Char

instance : LawfulBEq Text := inferInstanceAs (LawfulBEq (List Char))

/-- `str::len`: the number of UTF-8 bytes. -/
def byteLen (t : Text) : ℕ := (t.map Char.utf8Size).sum

@[simp] theorem byteLen_nil : byteLen [] = 0 := rfl

@[simp] theorem byteLen_cons (c : Char) (t : Text) : byteLen (c :: t) = c.utf8Size + byteLen t := by
  simp [byteLen]

@[simp] theorem byteLen_append (s t : Text) : byteLen (s ++ t) = byteLen s + byteLen t := by
  simp [byteLen]

theorem utf8Size_pos (c : Char) : 0 < c.utf8Size := Char.utf8Size_pos c

theorem length_le_byteLen (t : Text) : t.length ≤ byteLen t := by
  induction t with
  | nil => rfl
  | cons c t ih =>
    have := utf8Size_pos c
    simp only [List.length_cons, byteLen_cons]
    omega

/-- `&text[n..]` for a byte offset on a character boundary. -/
def dropBytes : ℕ → Text → Text
  | 0, t => t
  | _ + 1, [] => []
  | n + 1, c :: t => dropBytes (n + 1 - c.utf8Size) t

/-- `&text[..n]` for a byte offset on a character boundary. -/
def takeBytes : ℕ → Text → Text
  | 0, _ => []
  | _ + 1, [] => []
  | n + 1, c :: t => c :: takeBytes (n + 1 - c.utf8Size) t

/-- `str::is_char_boundary`. -/
def isCharBoundary : ℕ → Text → Bool
  | 0, _ => true
  | _ + 1, [] => false
  | n + 1, c :: t => decide (c.utf8Size ≤ n + 1) && isCharBoundary (n + 1 - c.utf8Size) t

@[simp] theorem dropBytes_zero (t : Text) : dropBytes 0 t = t := by cases t <;> rfl

@[simp] theorem takeBytes_zero (t : Text) : takeBytes 0 t = [] := by cases t <;> rfl

theorem dropBytes_cons {n : ℕ} {c : Char} {t : Text} (h : 0 < n) :
    dropBytes n (c :: t) = dropBytes (n - c.utf8Size) t := by
  obtain ⟨n, rfl⟩ := Nat.exists_eq_succ_of_ne_zero h.ne'
  rfl

theorem takeBytes_cons {n : ℕ} {c : Char} {t : Text} (h : 0 < n) :
    takeBytes n (c :: t) = c :: takeBytes (n - c.utf8Size) t := by
  obtain ⟨n, rfl⟩ := Nat.exists_eq_succ_of_ne_zero h.ne'
  rfl

@[simp] theorem dropBytes_append (s t : Text) : dropBytes (byteLen s) (s ++ t) = t := by
  induction s with
  | nil => simp
  | cons c s ih =>
    have hc := utf8Size_pos c
    rw [List.cons_append, byteLen_cons, dropBytes_cons (by omega)]
    simpa only [Nat.add_sub_cancel_left] using ih

@[simp] theorem takeBytes_append (s t : Text) : takeBytes (byteLen s) (s ++ t) = s := by
  induction s with
  | nil => simp
  | cons c s ih =>
    have hc := utf8Size_pos c
    rw [List.cons_append, byteLen_cons, takeBytes_cons (by omega)]
    simpa only [Nat.add_sub_cancel_left, List.cons.injEq, true_and] using ih

@[simp] theorem isCharBoundary_append (s t : Text) : isCharBoundary (byteLen s) (s ++ t) = true := by
  induction s with
  | nil => cases t <;> rfl
  | cons c s ih =>
    have hc := utf8Size_pos c
    obtain ⟨n, hn⟩ := Nat.exists_eq_succ_of_ne_zero (n := byteLen (c :: s))
      (by rw [byteLen_cons]; omega)
    rw [List.cons_append, hn, isCharBoundary, ← Nat.succ_eq_add_one, ← hn, byteLen_cons]
    simpa only [Nat.add_sub_cancel_left, Nat.le_add_right, decide_true, Bool.true_and] using ih

theorem takeBytes_append_dropBytes (n : ℕ) (t : Text) : takeBytes n t ++ dropBytes n t = t := by
  induction t generalizing n with
  | nil => cases n <;> rfl
  | cons c t ih =>
    cases n with
    | zero => simp
    | succ n =>
      rw [takeBytes, dropBytes, List.cons_append, ih]

theorem le_byteLen_of_isCharBoundary {n : ℕ} {t : Text} (h : isCharBoundary n t = true) :
    n ≤ byteLen t := by
  induction t generalizing n with
  | nil =>
    cases n with
    | zero => exact le_rfl
    | succ n => cases h
  | cons c t ih =>
    cases n with
    | zero => exact Nat.zero_le _
    | succ n =>
      rw [isCharBoundary, Bool.and_eq_true] at h
      have := ih h.2
      rw [byteLen_cons]
      omega

/-- `text.get(..n)`: the prefix of exactly `n` bytes, when `n` is a character boundary. -/
def getPrefixBytes (n : ℕ) (t : Text) : Option Text :=
  if isCharBoundary n t then some (takeBytes n t) else none

/-- `char::is_whitespace`: the Unicode `White_Space` property. -/
def isWhitespace (c : Char) : Bool :=
  let n := c.toNat
  (decide (9 ≤ n) && decide (n ≤ 13)) || n == 0x20 || n == 0x85 || n == 0xA0 || n == 0x1680 ||
    (decide (0x2000 ≤ n) && decide (n ≤ 0x200A)) || n == 0x2028 || n == 0x2029 || n == 0x202F ||
    n == 0x205F || n == 0x3000

/-- `char::is_control`: the Unicode `Cc` category. -/
def isControl (c : Char) : Bool :=
  decide (c.toNat < 0x20) || (decide (0x7F ≤ c.toNat) && decide (c.toNat < 0xA0))

/-- `str::trim_start`. -/
def trimStart (t : Text) : Text := t.dropWhile isWhitespace

/-- `str::trim_end`. -/
def trimEnd (t : Text) : Text := (t.reverse.dropWhile isWhitespace).reverse

/-- `str::trim`. -/
def trim (t : Text) : Text := trimEnd (trimStart t)

/-- `u8::is_ascii_uppercase`. -/
def isAsciiUppercase (c : Char) : Bool := c.isUpper

/-- `char::is_ascii_alphabetic`. -/
def isAsciiAlphabetic (c : Char) : Bool := c.isAlpha

/-- `char::is_ascii_digit`. -/
def isAsciiDigit (c : Char) : Bool := c.isDigit

/-- `char::is_ascii_alphanumeric`. -/
def isAsciiAlphanumeric (c : Char) : Bool := c.isAlphanum

/-- `str::to_ascii_lowercase`. -/
def toAsciiLowercase (t : Text) : Text := t.map Char.toLower

/-- `str::to_ascii_uppercase`. -/
def toAsciiUppercase (t : Text) : Text := t.map Char.toUpper

/-- `str::eq_ignore_ascii_case`. -/
def eqIgnoreAsciiCase (s t : Text) : Bool := toAsciiLowercase s == toAsciiLowercase t

/-- `str::strip_prefix` with a single character. -/
def stripPrefixChar (p : Char) : Text → Option Text
  | c :: t => if c = p then some t else none
  | [] => none

/-- `str::contains` with a text pattern. -/
def containsText (pattern : Text) : Text → Bool
  | [] => pattern.isEmpty
  | c :: t => pattern.isPrefixOf (c :: t) || containsText pattern t

theorem containsText_iff {pattern t : Text} : containsText pattern t = true ↔ pattern <:+: t := by
  induction t with
  | nil =>
    rw [containsText, List.isEmpty_iff, List.infix_nil]
  | cons c t ih =>
    rw [containsText, Bool.or_eq_true, List.isPrefixOf_iff_prefix, ih, List.infix_cons_iff]

/-- `str::rfind` with a text pattern: the last position at which it occurs. -/
def rfindText (pattern : Text) : Text → Option ℕ
  | [] => if pattern.isEmpty then some 0 else none
  | c :: t =>
    match rfindText pattern t with
    | some i => some (i + 1)
    | none => if pattern.isPrefixOf (c :: t) then some 0 else none

@[simp] theorem not_isWhitespace_lt : isWhitespace '<' = false := by decide

theorem isWhitespace_space : isWhitespace ' ' = true := by decide

/-- Whitespace from end to end. -/
def allWhitespace (t : Text) : Bool := t.all isWhitespace

@[simp] theorem allWhitespace_append (s t : Text) :
    allWhitespace (s ++ t) = (allWhitespace s && allWhitespace t) := by simp [allWhitespace]

theorem lt_notMem_of_allWhitespace {t : Text} (h : allWhitespace t = true) : '<' ∉ t := by
  intro hm
  have := List.all_eq_true.mp h '<' hm
  simp at this

theorem trim_eq_nil_of_allWhitespace {t : Text} (h : allWhitespace t = true) : trim t = [] := by
  have hs : trimStart t = [] := List.dropWhile_eq_nil_iff.mpr (List.all_eq_true.mp h)
  simp [trim, hs, trimEnd]

/-- Only whitespace trims to nothing. -/
theorem trim_isEmpty (t : Text) : (trim t).isEmpty = allWhitespace t := by
  rw [Bool.eq_iff_iff, List.isEmpty_iff, trim, trimEnd, List.reverse_eq_nil_iff,
    List.dropWhile_eq_nil_iff]
  constructor
  · intro h
    by_contra hne
    rw [allWhitespace, List.all_eq_true] at hne
    have hcons : trimStart t ≠ [] := by rwa [trimStart, Ne, List.dropWhile_eq_nil_iff]
    have hhead := List.head_dropWhile_not isWhitespace hcons
    exact absurd (h _ (List.mem_reverse.mpr (List.head_mem hcons))) (by simpa [trimStart] using hhead)
  · intro h c hc
    have hmem := (List.dropWhile_suffix isWhitespace).subset (List.mem_reverse.mp hc)
    exact List.all_eq_true.mp h c hmem

/-- A scan up to a character stops there at the latest. -/
theorem length_takeWhile_append_le {p : Char → Bool} {c : Char} (hc : p c = false) (s t : Text) :
    ((s ++ c :: t).takeWhile p).length ≤ s.length := by
  induction s with
  | nil => simp [hc]
  | cons d s ih =>
    by_cases hd : p d = true
    · simpa [hd] using ih
    · simp [hd]

theorem rfindText_eq_none {c : Char} {pattern t : Text} (h : c ∉ t) :
    rfindText (c :: pattern) t = none := by
  induction t with
  | nil => rfl
  | cons d t ih =>
    rw [List.mem_cons, not_or] at h
    simp [rfindText, ih h.2, List.isPrefixOf, beq_eq_false_iff_ne.mpr h.1]

theorem trimStart_eq_self {c : Char} (hc : isWhitespace c = false) (t : Text) :
    trimStart (c :: t) = c :: t := by
  simp [trimStart, hc]

theorem trim_eq_self {c d : Char} (hc : isWhitespace c = false) (hd : isWhitespace d = false)
    {t s : Text} (h : c :: t = s ++ [d]) : trim (c :: t) = c :: t := by
  rw [trim, trimStart_eq_self hc, h, trimEnd, List.reverse_append]
  simp [hd]

/-- The text in front of the first occurrence of a character. -/
theorem takeWhile_ne_append {c : Char} {s : Text} (h : c ∉ s) (t : Text) :
    (s ++ c :: t).takeWhile (· != c) = s := by
  have hs : ∀ d ∈ s, (d != c) = true := fun d hd => by
    simpa using fun he : d = c => h (he ▸ hd)
  rw [List.takeWhile_append_of_pos hs]
  simp

theorem dropWhile_ne_append {c : Char} {s : Text} (h : c ∉ s) (t : Text) :
    (s ++ c :: t).dropWhile (· != c) = c :: t := by
  have hs : ∀ d ∈ s, (d != c) = true := fun d hd => by
    simpa using fun he : d = c => h (he ▸ hd)
  rw [List.dropWhile_append_of_pos hs]
  simp

theorem dropWhile_append_cons {p : Char → Bool} (hc : p c = false) (x y : Text) :
    ∃ z, (x ++ c :: y).dropWhile p = z ++ c :: y := by
  induction x with
  | nil =>
    use []
    apply List.dropWhile_cons_of_neg
    rw [hc]
    exact Bool.false_ne_true
  | cons d x ih =>
    by_cases hd : p d = true
    · rw [List.cons_append, List.dropWhile_cons_of_pos hd]
      exact ih
    · use d :: x
      exact List.dropWhile_cons_of_neg hd

theorem trim_trim (t : Text) : trim (trim t) = trim t := by
  have hstart : trimStart (trim t) = trim t := by
    cases hfirst : trimStart t with
    | nil =>
      unfold trim
      rw [hfirst]
      rfl
    | cons c rest =>
      have hc : isWhitespace c = false := by
        have hne : t.dropWhile isWhitespace ≠ [] := by
          rw [show t.dropWhile isWhitespace = c :: rest from hfirst]
          exact List.cons_ne_nil c rest
        have hhead := List.head_dropWhile_not isWhitespace hne
        simpa [show t.dropWhile isWhitespace = c :: rest from hfirst] using hhead
      obtain ⟨z, hz⟩ := dropWhile_append_cons hc rest.reverse []
      unfold trim
      rw [hfirst, trimEnd, List.reverse_cons, hz, List.reverse_append]
      exact trimStart_eq_self hc _
  have hend : ∀ u, trimEnd (trimEnd u) = trimEnd u := by
    intro u
    unfold trimEnd
    rw [List.reverse_reverse, List.dropWhile_idempotent]
  show trimEnd (trimStart (trim t)) = trim t
  rw [hstart]
  exact hend _

end DeepseekScience
