import Mathlib.Tactic

/-! A streaming decoder of UTF-8: one byte at a time, with a replacement character for every
maximal part of an invalid sequence. What it has read of a text does not depend on how the bytes
of the text were cut. -/
namespace Utf8Stream

/-- What is known of a sequence that is not complete. -/
structure State where
  codePoint : ℕ := 0
  seen : ℕ := 0
  needed : ℕ := 0
  lower : ℕ := 0x80
  upper : ℕ := 0xBF
  deriving DecidableEq

def replacement : Char := '\uFFFD'

/-- The first byte of a sequence. -/
def lead (b : ℕ) : State × List Char :=
  if b ≤ 0x7F then ({}, [Char.ofNat b])
  else if 0xC2 ≤ b ∧ b ≤ 0xDF then ({ needed := 1, codePoint := b % 32 }, [])
  else if 0xE0 ≤ b ∧ b ≤ 0xEF then
    ({ needed := 2, codePoint := b % 16, lower := if b = 0xE0 then 0xA0 else 0x80,
       upper := if b = 0xED then 0x9F else 0xBF }, [])
  else if 0xF0 ≤ b ∧ b ≤ 0xF4 then
    ({ needed := 3, codePoint := b % 8, lower := if b = 0xF0 then 0x90 else 0x80,
       upper := if b = 0xF4 then 0x8F else 0xBF }, [])
  else ({}, [replacement])

/-- A byte that cannot go on with a sequence is read again as a first byte. -/
def feed (s : State) (b : UInt8) : State × List Char :=
  let byte := b.toNat
  if s.needed = 0 then lead byte
  else if byte < s.lower ∨ s.upper < byte then ((lead byte).1, replacement :: (lead byte).2)
  else
    let codePoint := s.codePoint * 64 + byte % 64
    if s.seen + 1 = s.needed then ({}, [Char.ofNat codePoint])
    else ({ s with codePoint := codePoint, seen := s.seen + 1, lower := 0x80, upper := 0xBF }, [])

def feeds (s : State) : List UInt8 → State × List Char
  | [] => (s, [])
  | b :: bytes => ((feeds (feed s b).1 bytes).1, (feed s b).2 ++ (feeds (feed s b).1 bytes).2)

def encode (t : List Char) : List UInt8 := t.flatMap String.utf8EncodeChar

variable {s : State} {t : List Char} {bytes : List UInt8}

@[simp] theorem feeds_nil : feeds s [] = (s, []) := rfl

theorem feeds_append (s : State) (front back : List UInt8) :
    feeds s (front ++ back) = ((feeds (feeds s front).1 back).1,
      (feeds s front).2 ++ (feeds (feeds s front).1 back).2) := by
  induction front generalizing s with
  | nil => rfl
  | cons b front ih => simp [feeds, ih]

@[simp] theorem encode_nil : encode [] = [] := rfl

theorem encode_append (t u : List Char) : encode (t ++ u) = encode t ++ encode u := by
  simp [encode]

theorem encode_singleton (c : Char) : encode [c] = String.utf8EncodeChar c := by
  simp [encode]

theorem char_ofNat_of_eq {c : Char} {n : ℕ} (h : n = c.val.toNat) : Char.ofNat n = c := by
  rw [h]
  exact Char.ofNat_toNat c

/-- The code points of characters: no surrogates. -/
theorem not_surrogate (c : Char) : c.val.toNat < 0xD800 ∨ 0xDFFF < c.val.toNat := by
  have h := c.valid
  rw [UInt32.isValidChar, Nat.isValidChar] at h
  omega

theorem code_lt (c : Char) : c.val.toNat < 0x110000 := by
  have h := c.valid
  rw [UInt32.isValidChar, Nat.isValidChar] at h
  omega

theorem feed_start (b : UInt8) : feed {} b = lead b.toNat := rfl

theorem lead_two {b : ℕ} (hlow : 0xC2 ≤ b) (hhigh : b ≤ 0xDF) :
    lead b = ({ needed := 1, codePoint := b % 32 }, []) := by
  rw [lead, if_neg (by omega), if_pos ⟨hlow, hhigh⟩]

theorem lead_three {b : ℕ} (hlow : 0xE0 ≤ b) (hhigh : b ≤ 0xEF) :
    lead b = ({ needed := 2, codePoint := b % 16, lower := if b = 0xE0 then 0xA0 else 0x80,
                upper := if b = 0xED then 0x9F else 0xBF }, []) := by
  rw [lead, if_neg (by omega), if_neg (by omega), if_pos ⟨hlow, hhigh⟩]

theorem lead_four {b : ℕ} (hlow : 0xF0 ≤ b) (hhigh : b ≤ 0xF4) :
    lead b = ({ needed := 3, codePoint := b % 8, lower := if b = 0xF0 then 0x90 else 0x80,
                upper := if b = 0xF4 then 0x8F else 0xBF }, []) := by
  rw [lead, if_neg (by omega), if_neg (by omega), if_neg (by omega), if_pos ⟨hlow, hhigh⟩]

theorem feed_more {b : UInt8} (hneeded : s.seen + 1 < s.needed) (hlower : s.lower ≤ b.toNat)
    (hupper : b.toNat ≤ s.upper) :
    feed s b = ({ s with codePoint := s.codePoint * 64 + b.toNat % 64, seen := s.seen + 1,
                         lower := 0x80, upper := 0xBF }, []) := by
  rw [feed, if_neg (by omega), if_neg (by omega), if_neg (by omega)]

theorem feed_last {b : UInt8} (hneeded : s.seen + 1 = s.needed) (hlower : s.lower ≤ b.toNat)
    (hupper : b.toNat ≤ s.upper) :
    feed s b = ({}, [Char.ofNat (s.codePoint * 64 + b.toNat % 64)]) := by
  rw [feed, if_neg (by omega), if_neg (by omega), if_pos hneeded]

/-- A character that was cut into its bytes comes back when the last of them is there. -/
theorem feeds_char (c : Char) : feeds {} (String.utf8EncodeChar c) = ({}, [c]) := by
  have hsurrogate := not_surrogate c
  have hlt := code_lt c
  have hcode := @char_ofNat_of_eq c
  rw [String.utf8EncodeChar]
  generalize c.val.toNat = v at *
  have hbyte : ∀ n < 256, (UInt8.ofNat n).toNat = n := by
    intro n hn
    simp [Nat.mod_eq_of_lt hn]
  split_ifs with hone htwo hthree
  · rw [feeds, feed_start, hbyte v (by omega), lead, if_pos hone, hcode rfl]
    rfl
  · have h₁ := hbyte (v / 64 % 32 + 192) (by omega)
    have h₂ := hbyte (v % 64 + 128) (by omega)
    rw [feeds, feed_start, h₁, lead_two (by omega) (by omega)]
    rw [feeds, feed_last rfl (by simp only [h₂]; omega) (by simp only [h₂]; omega), h₂,
      hcode (by dsimp only; omega)]
    rfl
  · have h₁ := hbyte (v / 4096 % 16 + 224) (by omega)
    have h₂ := hbyte (v / 64 % 64 + 128) (by omega)
    have h₃ := hbyte (v % 64 + 128) (by omega)
    rw [feeds, feed_start, h₁, lead_three (by omega) (by omega)]
    rw [feeds, feed_more (by simp) (by simp only [h₂]; split_ifs <;> omega)
      (by simp only [h₂]; split_ifs <;> omega), h₂]
    rw [feeds, feed_last rfl (by simp only [h₃]; omega) (by simp only [h₃]; omega), h₃,
      hcode (by dsimp only; omega)]
    rfl
  · have h₁ := hbyte (v / 262144 % 8 + 240) (by omega)
    have h₂ := hbyte (v / 4096 % 64 + 128) (by omega)
    have h₃ := hbyte (v / 64 % 64 + 128) (by omega)
    have h₄ := hbyte (v % 64 + 128) (by omega)
    rw [feeds, feed_start, h₁, lead_four (by omega) (by omega)]
    rw [feeds, feed_more (by simp) (by simp only [h₂]; split_ifs <;> omega)
      (by simp only [h₂]; split_ifs <;> omega), h₂]
    rw [feeds, feed_more (by simp) (by simp only [h₃]; omega) (by simp only [h₃]; omega), h₃]
    rw [feeds, feed_last rfl (by simp only [h₄]; omega) (by simp only [h₄]; omega), h₄,
      hcode (by dsimp only; omega)]
    rfl

/-- A whole text comes back from its bytes, and nothing is left of it. -/
theorem feeds_encode (t : List Char) : feeds {} (encode t) = ({}, t) := by
  induction t with
  | nil => rfl
  | cons c t ih =>
    rw [← List.singleton_append, encode_append, encode_singleton, feeds_append, feeds_char, ih]

theorem feeds_encode_append (t : List Char) (bytes : List UInt8) :
    feeds {} (encode t ++ bytes) = ((feeds {} bytes).1, t ++ (feeds {} bytes).2) := by
  rw [feeds_append, feeds_encode]

/-- What comes out of the front of the bytes of a text is the front of the text. -/
theorem feeds_prefix {front back : List UInt8} (h : front ++ back = encode t) :
    (feeds {} front).2 ++ (feeds (feeds {} front).1 back).2 = t := by
  have hall := feeds_encode t
  rw [← h, feeds_append] at hall
  exact congrArg Prod.snd hall

/-- A byte of ASCII always comes out. -/
theorem feed_ascii {b : UInt8} (h : b.toNat ≤ 0x7F) (hlower : 0x80 ≤ s.lower) :
    (feed s b).2 ≠ [] := by
  have hlead : lead b.toNat = ({}, [Char.ofNat b.toNat]) := by rw [lead, if_pos h]
  rw [feed]
  split_ifs with hneeded hrange
  · simp [hlead]
  · simp
  · omega
  · omega

theorem feed_lower (s : State) (b : UInt8) : 0x80 ≤ (feed s b).1.lower := by
  have hlead : 0x80 ≤ (lead b.toNat).1.lower := by
    rw [lead]
    split_ifs <;> simp
  rw [feed]
  split_ifs <;> simp [hlead]

theorem feeds_lower (h : 0x80 ≤ s.lower) : 0x80 ≤ (feeds s bytes).1.lower := by
  induction bytes generalizing s with
  | nil => exact h
  | cons b bytes ih => exact ih (feed_lower s b)

end Utf8Stream
