import Mathlib
import DeepseekScience.Lib.Separator
import DeepseekScience.Text

/-! The names under which the model sees the tools of remote servers, and which tools share one. -/
namespace DeepseekScience.Mcp

open Separators

def mcpToolNameMaxBytes : ℕ := 64

def isToolNameByte (c : Char) : Bool := isAsciiAlphanumeric c || c == '_' || c == '-'

def utf8Bytes (t : Text) : List UInt8 := t.flatMap String.utf8EncodeChar

/-- `usize::to_le_bytes`. -/
def toLeBytes (n : ℕ) : List UInt8 :=
  (List.range 8).map fun i => UInt8.ofNat (n / 256 ^ i)

def fnvStep (hash : UInt64) (byte : UInt8) : UInt64 := (hash ^^^ byte.toUInt64) * 0x100000001b3

/-- FNV-1a over the pair, with the lengths of its parts. -/
def toolNameFingerprint (server tool : Text) : UInt64 :=
  (toLeBytes (byteLen server) ++ utf8Bytes server ++ toLeBytes (byteLen tool) ++
    utf8Bytes tool).foldl fnvStep 0xcbf29ce484222325

def hexDigit (n : ℕ) : Char := Char.ofNat (if n < 10 then 48 + n else 87 + n)

/-- The last digits of a number, in lower-case hexadecimal. -/
def hexDigits : ℕ → ℕ → Text
  | 0, _ => []
  | width + 1, n => hexDigits width (n / 16) ++ [hexDigit (n % 16)]

def normalizeToolNameSegment (value : Text) : Text :=
  value.map fun c => if isToolNameByte c then c else '_'

/-- `mcp__{server}__{tool}`. -/
def mountedName (server tool : Text) : Text :=
  "mcp__".toList ++ server ++ "__".toList ++ tool

/-- A name that is kept as it is. -/
def isExact (server tool : Text) : Bool :=
  decide (byteLen (mountedName server tool) ≤ mcpToolNameMaxBytes) &&
    (mountedName server tool).all isToolNameByte && !containsText "__".toList server &&
    !containsText "__".toList tool

def fingerprintSuffix (server tool : Text) : Text :=
  "__h".toList ++ hexDigits 16 (toolNameFingerprint server tool).toNat

def mcpToolName (server tool : Text) : Text :=
  if isExact server tool then mountedName server tool
  else
    let normalized :=
      mountedName (normalizeToolNameSegment server) (normalizeToolNameSegment tool)
    let suffix := fingerprintSuffix server tool
    let headBytes := mcpToolNameMaxBytes - suffix.length
    normalized.take (min normalized.length headBytes) ++ suffix

/-! The digits of a fingerprint. -/

theorem length_hexDigits (width n : ℕ) : (hexDigits width n).length = width := by
  induction width generalizing n with
  | zero => rfl
  | succ width ih => rw [hexDigits, List.length_append, ih, List.length_singleton]

theorem hexDigit_cases {n : ℕ} (h : n < 16) :
    isToolNameByte (hexDigit n) = true ∧ hexDigit n ≠ '_' ∧
      ∀ m < 16, hexDigit m = hexDigit n → m = n := by
  revert n
  decide

theorem mem_hexDigits {width n : ℕ} {c : Char} (h : c ∈ hexDigits width n) :
    isToolNameByte c = true ∧ c ≠ '_' := by
  induction width generalizing n with
  | zero => exact absurd h List.not_mem_nil
  | succ width ih =>
    rw [hexDigits, List.mem_append, List.mem_singleton] at h
    rcases h with h | rfl
    · exact ih h
    · have hdigit := hexDigit_cases (Nat.mod_lt n (by decide : 0 < 16))
      exact ⟨hdigit.1, hdigit.2.1⟩

/-- A number below `16 ^ width` is known by its digits. -/
theorem hexDigits_inj {width m n : ℕ} (hm : m < 16 ^ width) (hn : n < 16 ^ width)
    (h : hexDigits width m = hexDigits width n) : m = n := by
  induction width generalizing m n with
  | zero =>
    rw [pow_zero] at hm hn
    omega
  | succ width ih =>
    rw [hexDigits, hexDigits] at h
    obtain ⟨hhigh, hlow⟩ := List.append_inj' h rfl
    have hdigit := (hexDigit_cases (Nat.mod_lt n (by decide : 0 < 16))).2.2 (m % 16)
      (Nat.mod_lt m (by decide)) (List.singleton_inj.mp hlow)
    rw [pow_succ] at hm hn
    have hrest := ih (Nat.div_lt_of_lt_mul (by omega)) (Nat.div_lt_of_lt_mul (by omega)) hhigh
    omega

theorem length_fingerprintSuffix (server tool : Text) :
    (fingerprintSuffix server tool).length = 19 := by
  rw [fingerprintSuffix, List.length_append, length_hexDigits]
  rfl

/-- The readable part of a name that carries a fingerprint. -/
def readableHead (server tool : Text) : Text :=
  (join '_' (normalizeToolNameSegment server) (normalizeToolNameSegment tool)).take 40

def fingerprintDigits (server tool : Text) : Text :=
  hexDigits 16 (toolNameFingerprint server tool).toNat

theorem mountedName_eq (server tool : Text) :
    mountedName server tool = "mcp__".toList ++ join '_' server tool := by
  unfold mountedName join
  simp

theorem mcpToolName_exact {server tool : Text} (h : isExact server tool = true) :
    mcpToolName server tool = "mcp__".toList ++ join '_' server tool := by
  rw [mcpToolName, if_pos h, mountedName_eq]

theorem mcpToolName_fingerprint {server tool : Text} (h : ¬ isExact server tool = true) :
    mcpToolName server tool = "mcp__".toList ++ join '_' (readableHead server tool)
      ('h' :: fingerprintDigits server tool) := by
  rw [mcpToolName, if_neg h]
  dsimp only
  rw [length_fingerprintSuffix, mountedName_eq, Nat.min_comm, ← List.take_eq_take_min]
  show List.take 45 _ ++ _ = _
  rw [show (45 : ℕ) = "mcp__".toList.length + 40 from rfl, List.take_length_add_append]
  unfold readableHead join fingerprintSuffix fingerprintDigits
  simp

/-! Every name is one that the model API takes. -/

theorem utf8Size_of_isToolNameByte {c : Char} (h : isToolNameByte c = true) : c.utf8Size = 1 := by
  have hsmall : c.toNat ≤ 127 := by
    simp only [isToolNameByte, isAsciiAlphanumeric, Bool.or_eq_true, beq_iff_eq] at h
    rcases h with (h | rfl) | rfl
    · simp only [Char.isAlphanum, Char.isAlpha, Char.isUpper, Char.isLower, Char.isDigit,
        Bool.or_eq_true, Bool.and_eq_true, decide_eq_true_eq, UInt32.le_iff_toNat_le] at h
      have hval : ∀ d : Char, d.val.toNat = d.toNat := fun _ => rfl
      have hZ : 'Z'.toNat = 90 := rfl
      have hz : 'z'.toNat = 122 := rfl
      have h9 : '9'.toNat = 57 := rfl
      simp only [hval] at h
      omega
    · decide
    · decide
  have hval : c.val ≤ 127 := UInt32.le_iff_toNat_le.mpr hsmall
  exact if_pos hval

theorem byteLen_of_all {t : Text} (h : ∀ c ∈ t, isToolNameByte c = true) : byteLen t = t.length := by
  induction t with
  | nil => rfl
  | cons c t ih =>
    rw [byteLen_cons, utf8Size_of_isToolNameByte (h c List.mem_cons_self),
      ih fun d hd => h d (List.mem_cons_of_mem c hd), List.length_cons, Nat.add_comm]

theorem mem_normalize {value : Text} {c : Char} (h : c ∈ normalizeToolNameSegment value) :
    isToolNameByte c = true := by
  obtain ⟨d, -, rfl⟩ := List.mem_map.mp h
  split_ifs with hd
  · exact hd
  · rfl

theorem mem_join {u c : Char} {s t : Text} (h : c ∈ join u s t) : c ∈ s ∨ c = u ∨ c ∈ t := by
  simp only [join, List.mem_append, List.mem_cons] at h
  rcases h with h | h | h | h
  · exact Or.inl h
  · exact Or.inr (Or.inl h)
  · exact Or.inr (Or.inl h)
  · exact Or.inr (Or.inr h)

theorem mem_readableHead {server tool : Text} {c : Char} (h : c ∈ readableHead server tool) :
    isToolNameByte c = true := by
  rcases mem_join (List.mem_of_mem_take h) with h | rfl | h
  · exact mem_normalize h
  · rfl
  · exact mem_normalize h

/-- A name has at most 64 bytes, all of them letters, digits, `_` and `-`. -/
theorem mcpToolName_valid (server tool : Text) :
    byteLen (mcpToolName server tool) ≤ mcpToolNameMaxBytes ∧
      ∀ c ∈ mcpToolName server tool, isToolNameByte c = true := by
  by_cases h : isExact server tool = true
  · have hname : mcpToolName server tool = mountedName server tool := if_pos h
    simp only [isExact, Bool.and_eq_true, decide_eq_true_eq, List.all_eq_true] at h
    rw [hname]
    exact ⟨h.1.1.1, h.1.1.2⟩
  · have hall : ∀ c ∈ mcpToolName server tool, isToolNameByte c = true := by
      rw [mcpToolName_fingerprint h]
      intro c hc
      rcases List.mem_append.mp hc with hc | hc
      · have hbegins : "mcp__".toList.all isToolNameByte = true := by decide
        exact List.all_eq_true.mp hbegins c hc
      · rcases mem_join hc with hc | rfl | hc
        · exact mem_readableHead hc
        · rfl
        · rcases List.mem_cons.mp hc with rfl | hc
          · rfl
          · exact (mem_hexDigits hc).1
    refine ⟨?_, hall⟩
    rw [byteLen_of_all hall, mcpToolName_fingerprint h]
    have hhead : (readableHead server tool).length ≤ 40 := List.length_take_le ..
    simp only [join, List.length_append, List.length_cons, fingerprintDigits, length_hexDigits]
    show 5 + _ ≤ 64
    omega

/-! The tools that share a name. -/

structure ToolKey where
  server : Text
  tool : Text
  deriving DecidableEq

def ToolKey.name (k : ToolKey) : Text := mcpToolName k.server k.tool

def ToolKey.exact (k : ToolKey) : Bool := isExact k.server k.tool

/-- The name of `a` is kept as it is, and reads as the name of `b`: an underscore has moved across
the separator, or the tool of `a` is called like the fingerprint of `b`. -/
def SharesName (a b : ToolKey) : Prop :=
  a.exact = true ∧
    ((b.exact = true ∧ b.server = a.server ++ ['_'] ∧ a.tool = '_' :: b.tool) ∨
      (b.exact = false ∧
        ((a.server = readableHead b.server b.tool ∧
            a.tool = 'h' :: fingerprintDigits b.server b.tool) ∨
          (a.server ++ ['_'] = readableHead b.server b.tool ∧
            a.tool = '_' :: 'h' :: fingerprintDigits b.server b.tool))))

instance (a b : ToolKey) : Decidable (SharesName a b) := by
  unfold SharesName
  infer_instance

theorem free_of_exact {k : ToolKey} (h : k.exact = true) : Free '_' k.server ∧ Free '_' k.tool := by
  simp only [ToolKey.exact, isExact, Bool.and_eq_true, Bool.not_eq_true'] at h
  exact ⟨fun hfix => Bool.false_ne_true (h.1.2.symm.trans (containsText_iff.mpr hfix)),
    fun hfix => Bool.false_ne_true (h.2.symm.trans (containsText_iff.mpr hfix))⟩

theorem name_exact {k : ToolKey} (h : k.exact = true) :
    k.name = "mcp__".toList ++ join '_' k.server k.tool := mcpToolName_exact h

theorem name_fingerprint {k : ToolKey} (h : k.exact = false) :
    k.name = "mcp__".toList ++ join '_' (readableHead k.server k.tool)
      ('h' :: fingerprintDigits k.server k.tool) :=
  mcpToolName_fingerprint fun hexact => absurd (hexact.symm.trans h) Bool.false_ne_true.symm

theorem name_eq_of_exact {a b : ToolKey} (ha : a.exact = true) (hb : b.exact = true) :
    a.name = b.name ↔ a = b ∨ SharesName a b ∨ SharesName b a := by
  obtain ⟨hserver, htool⟩ := free_of_exact ha
  rw [name_exact ha, name_exact hb, List.append_cancel_left_eq, join_eq_join_iff hserver htool]
  obtain ⟨s, t⟩ := a
  obtain ⟨s', t'⟩ := b
  simp [SharesName, ha, hb, eq_comm]

theorem name_eq_of_mixed {a b : ToolKey} (ha : a.exact = true) (hb : b.exact = false) :
    a.name = b.name ↔ SharesName a b := by
  obtain ⟨hserver, htool⟩ := free_of_exact ha
  rw [name_exact ha, name_fingerprint hb, List.append_cancel_left_eq,
    join_eq_join_iff hserver htool]
  simp [SharesName, ha, hb, eq_comm]

/-- Where fingerprints differ, only the kept names can coincide with others. -/
theorem name_eq_iff {a b : ToolKey}
    (hfingerprint : toolNameFingerprint a.server a.tool = toolNameFingerprint b.server b.tool →
      a = b) :
    a.name = b.name ↔ a = b ∨ SharesName a b ∨ SharesName b a := by
  cases ha : a.exact <;> cases hb : b.exact
  · have hnone : ¬ SharesName a b ∧ ¬ SharesName b a := by simp [SharesName, ha, hb]
    constructor
    · intro h
      apply Or.inl
      apply hfingerprint
      rw [name_fingerprint ha, name_fingerprint hb] at h
      unfold join at h
      have hdigits : fingerprintDigits a.server a.tool = fingerprintDigits b.server b.tool := by
        have hlength : (fingerprintDigits a.server a.tool).length =
            (fingerprintDigits b.server b.tool).length := by
          rw [fingerprintDigits, fingerprintDigits, length_hexDigits, length_hexDigits]
        have hsplit : ∀ x d : Text, "mcp__".toList ++ (x ++ '_' :: '_' :: 'h' :: d) =
            ("mcp__".toList ++ x ++ ['_', '_', 'h']) ++ d := by simp
        rw [hsplit, hsplit] at h
        exact (List.append_inj' h hlength).2
      apply UInt64.toNat_inj.mp
      exact hexDigits_inj (UInt64.toNat_lt _) (UInt64.toNat_lt _) hdigits
    · rintro (rfl | h | h)
      · rfl
      · exact absurd h hnone.1
      · exact absurd h hnone.2
  · rw [eq_comm, name_eq_of_mixed hb ha]
    have hne : a ≠ b := fun h => absurd (h ▸ ha) (by rw [hb]; exact Bool.false_ne_true.symm)
    have hnone : ¬ SharesName a b := by simp [SharesName, ha]
    simp [hne, hnone]
  · rw [name_eq_of_mixed ha hb]
    have hne : a ≠ b := fun h => absurd (h ▸ ha) (by rw [hb]; exact Bool.false_ne_true)
    have hnone : ¬ SharesName b a := by simp [SharesName, hb]
    simp [hne, hnone]
  · exact name_eq_of_exact ha hb

end DeepseekScience.Mcp
