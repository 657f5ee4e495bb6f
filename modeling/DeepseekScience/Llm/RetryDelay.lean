import DeepseekScience.Llm.Fixdate

/-! What `Retry-After` is taken for: only dates that exist are read, no value overflows a machine
integer, and the delay is the distance to the date within its cap. -/
namespace DeepseekScience.RetryAfter

open Redaction Calendar

section
/-! Numbers and months that were read. -/

theorem digitByte_congr {m n : ℕ} (h : m % 10 = n % 10) : digitByte m = digitByte n := by
  rw [digitByte, digitByte, h]

theorem isDigitByte_iff {b : UInt8} : isDigitByte b = true ↔ ∃ n < 10, b = digitByte n := by
  constructor
  · intro h
    simp only [isDigitByte, Bool.and_eq_true, decide_eq_true_eq, UInt8.le_iff_toNat_le] at h
    have hlow : 48 ≤ b.toNat := h.1
    have hhigh : b.toNat ≤ 57 := h.2
    refine ⟨b.toNat - 48, by omega, ?_⟩
    apply UInt8.toNat_inj.mp
    have hvalue := digitByte_value (b.toNat - 48)
    have hdigit := digitByte_isDigit (b.toNat - 48)
    simp only [isDigitByte, Bool.and_eq_true, decide_eq_true_eq, UInt8.le_iff_toNat_le] at hdigit
    have hfloor : 48 ≤ (digitByte (b.toNat - 48)).toNat := hdigit.1
    omega
  · rintro ⟨n, -, rfl⟩
    exact digitByte_isDigit n

/-- What the fold does with one more byte, as long as the number is small. -/
theorem parseAsciiNumberFrom_cons {value : ℕ} (h : value < 10 ^ 8) (b : UInt8)
    (bytes : List UInt8) :
    (isDigitByte b = false ∧ parseAsciiNumberFrom value (b :: bytes) = .ok none) ∨
      ∃ n < 10, b = digitByte n ∧ parseAsciiNumberFrom value (b :: bytes) =
        parseAsciiNumberFrom (value * 10 + n) bytes := by
  cases hb : isDigitByte b with
  | false => exact Or.inl ⟨rfl, by rw [parseAsciiNumberFrom, hb]; rfl⟩
  | true =>
    obtain ⟨n, hn, rfl⟩ := isDigitByte_iff.mp hb
    have hmod : n % 10 = n := Nat.mod_eq_of_lt hn
    refine Or.inr ⟨n, hn, rfl, ?_⟩
    rw [parseAsciiNumberFrom_digit h, hmod]

/-- Bytes are no number, or the digits of one. -/
theorem parseAsciiNumberFrom_cases {bytes : List UInt8} {value : ℕ}
    (h : (value + 1) * 10 ^ bytes.length ≤ 10 ^ 9) :
    parseAsciiNumberFrom value bytes = .ok none ∨
      ∃ digits : List ℕ, (∀ n ∈ digits, n < 10) ∧ bytes = digits.map digitByte ∧
        parseAsciiNumberFrom value bytes =
          .ok (some (digits.foldl (fun value n => value * 10 + n) value)) := by
  induction bytes generalizing value with
  | nil => exact Or.inr ⟨[], by simp, rfl, rfl⟩
  | cons b bytes ih =>
    rw [List.length_cons, pow_succ] at h
    have hpos : 1 ≤ 10 ^ bytes.length := Nat.one_le_pow _ _ (by omega)
    have hvalue : value < 10 ^ 8 := by nlinarith
    obtain ⟨-, hnone⟩ | ⟨n, hn, rfl, hfirst⟩ := parseAsciiNumberFrom_cons hvalue b bytes
    · exact Or.inl hnone
    · rw [hfirst]
      have hnext : (value * 10 + n + 1) * 10 ^ bytes.length ≤ 10 ^ 9 := by nlinarith
      obtain hnone | ⟨digits, hdigits, rfl, hrest⟩ := ih hnext
      · exact Or.inl hnone
      · refine Or.inr ⟨n :: digits, ?_, rfl, hrest⟩
        exact List.forall_mem_cons.mpr ⟨hn, hdigits⟩

theorem parseAsciiNumber_two {bytes : List UInt8} (h : bytes.length = 2) :
    parseAsciiNumber bytes = .ok none ∨
      ∃ n < 100, bytes = twoBytes n ∧ parseAsciiNumber bytes = .ok (some n) := by
  obtain hnone | ⟨digits, hdigits, rfl, hvalue⟩ :=
    parseAsciiNumberFrom_cases (by rw [h]; omega : (0 + 1) * 10 ^ bytes.length ≤ 10 ^ 9)
  · exact Or.inl hnone
  · rw [List.length_map] at h
    obtain ⟨i, j, rfl⟩ := List.length_eq_two.mp h
    simp only [List.forall_mem_cons] at hdigits
    obtain ⟨hi, hj, -⟩ := hdigits
    refine Or.inr ⟨10 * i + j, by omega, ?_, ?_⟩
    · simp only [List.map_cons, List.map_nil, twoBytes]
      rw [digitByte_congr (by omega : (10 * i + j) / 10 % 10 = i % 10),
        digitByte_congr (by omega : (10 * i + j) % 10 = j % 10)]
    · rw [parseAsciiNumber, hvalue]
      simp only [List.foldl_cons, List.foldl_nil]
      congr 2
      omega

theorem parseAsciiNumber_four {bytes : List UInt8} (h : bytes.length = 4) :
    parseAsciiNumber bytes = .ok none ∨
      ∃ n < 10000, bytes = fourBytes n ∧ parseAsciiNumber bytes = .ok (some n) := by
  obtain hnone | ⟨digits, hdigits, rfl, hvalue⟩ :=
    parseAsciiNumberFrom_cases (by rw [h]; omega : (0 + 1) * 10 ^ bytes.length ≤ 10 ^ 9)
  · exact Or.inl hnone
  · rw [List.length_map] at h
    obtain ⟨i, digits, rfl⟩ := List.exists_cons_of_length_eq_add_one h
    obtain ⟨j, k, l, rfl⟩ := List.length_eq_three.mp (Nat.succ.inj h)
    simp only [List.forall_mem_cons] at hdigits
    obtain ⟨hi, hj, hk, hl, -⟩ := hdigits
    refine Or.inr ⟨1000 * i + 100 * j + 10 * k + l, by omega, ?_, ?_⟩
    · simp only [List.map_cons, List.map_nil, fourBytes]
      rw [digitByte_congr (by omega : (1000 * i + 100 * j + 10 * k + l) / 1000 % 10 = i % 10),
        digitByte_congr (by omega : (1000 * i + 100 * j + 10 * k + l) / 100 % 10 = j % 10),
        digitByte_congr (by omega : (1000 * i + 100 * j + 10 * k + l) / 10 % 10 = k % 10),
        digitByte_congr (by omega : (1000 * i + 100 * j + 10 * k + l) % 10 = l % 10)]
    · rw [parseAsciiNumber, hvalue]
      simp only [List.foldl_cons, List.foldl_nil]
      congr 2
      omega

theorem monthNumber_eq_some {name : List UInt8} {month : ℕ} (h : monthNumber name = some month) :
    (1 ≤ month ∧ month ≤ 12) ∧ name = utf8Bytes (monthName month) := by
  rw [monthNumber, Option.map_eq_some_iff] at h
  obtain ⟨i, hi, rfl⟩ := h
  obtain ⟨hlt, hname, -⟩ := List.findIdx?_eq_some_iff_getElem.mp hi
  have hbound : i < 12 := hlt
  refine ⟨by omega, ?_⟩
  rw [decide_eq_true_eq] at hname
  rw [← hname, monthName, asciiBytes, Nat.add_sub_cancel]
  simp [List.getD_eq_getElem?_getD, hlt]

end

section
/-! What is read exists. -/

/-- The bytes at the places of the fields spell a day of a month of a year of at most four digits,
and a time of that day. -/
def FieldsExist (bytes : List UInt8) : Prop :=
  ∃ (d : Date) (hour minute second : ℕ), (0 ≤ d.year ∧ d.year ≤ 9999) ∧ hour < 24 ∧ minute < 60 ∧
    second < 60 ∧ slice bytes 5 7 = twoBytes d.day ∧
    slice bytes 8 11 = utf8Bytes (monthName d.month) ∧ slice bytes 12 16 = fourBytes d.year.toNat ∧
    slice bytes 17 19 = twoBytes hour ∧ slice bytes 20 22 = twoBytes minute ∧
    slice bytes 23 25 = twoBytes second

theorem slice_length {bytes : List UInt8} {start stop : ℕ} (hstart : start ≤ stop)
    (hstop : stop ≤ bytes.length) : (slice bytes start stop).length = stop - start := by
  rw [slice, List.length_take, List.length_drop]
  omega

/-- The fields cannot be read, or they spell numbers and a month. -/
theorem readFields_cases {bytes : List UInt8} (h : bytes.length = 29) :
    readFields bytes = .ok none ∨ ∃ day < 100, ∃ month, (1 ≤ month ∧ month ≤ 12) ∧
      ∃ year < 10000, ∃ hour < 100, ∃ minute < 100, ∃ second < 100,
        slice bytes 5 7 = twoBytes day ∧ slice bytes 8 11 = utf8Bytes (monthName month) ∧
        slice bytes 12 16 = fourBytes year ∧ slice bytes 17 19 = twoBytes hour ∧
        slice bytes 20 22 = twoBytes minute ∧ slice bytes 23 25 = twoBytes second ∧
        readFields bytes = .ok (some ⟨day, month, year, hour, minute, second⟩) := by
  have hlength : ∀ {start stop : ℕ}, start ≤ stop → stop ≤ 29 →
      (slice bytes start stop).length = stop - start :=
    fun hstart hstop => slice_length hstart (by omega)
  simp only [readFields, bind, Except.bind]
  obtain hnone | ⟨day, hday, sday, pday⟩ := parseAsciiNumber_two (hlength (by omega) (by omega) :
    (slice bytes 5 7).length = 2)
  · exact Or.inl (by rw [hnone])
  · rw [pday]
    cases hmonth : monthNumber (slice bytes 8 11) with
    | none => exact Or.inl rfl
    | some month =>
      obtain ⟨hmonths, smonth⟩ := monthNumber_eq_some hmonth
      dsimp only
      obtain hnone | ⟨year, hyear, syear, pyear⟩ := parseAsciiNumber_four
        (hlength (by omega) (by omega) : (slice bytes 12 16).length = 4)
      · exact Or.inl (by rw [hnone])
      rw [pyear]
      dsimp only
      obtain hnone | ⟨hour, hhour, shour, phour⟩ := parseAsciiNumber_two
        (hlength (by omega) (by omega) : (slice bytes 17 19).length = 2)
      · exact Or.inl (by rw [hnone])
      rw [phour]
      dsimp only
      obtain hnone | ⟨minute, hminute, sminute, pminute⟩ := parseAsciiNumber_two
        (hlength (by omega) (by omega) : (slice bytes 20 22).length = 2)
      · exact Or.inl (by rw [hnone])
      rw [pminute]
      dsimp only
      obtain hnone | ⟨second, hsecond, ssecond, psecond⟩ := parseAsciiNumber_two
        (hlength (by omega) (by omega) : (slice bytes 23 25).length = 2)
      · exact Or.inl (by rw [hnone])
      rw [psecond]
      exact Or.inr ⟨day, hday, month, hmonths, year, hyear, hour, hhour, minute, hminute, second,
        hsecond, sday, smonth, syear, shour, sminute, ssecond, rfl⟩

theorem hasDateShape_length {bytes : List UInt8} (h : hasDateShape bytes = true) :
    bytes.length = 29 := by
  simp only [hasDateShape, Bool.and_eq_true, decide_eq_true_eq] at h
  exact h.1.1.1.1.1.1.1.1

/-- No value overflows a machine integer, and what is read has fields that exist. -/
theorem parse_cases (value : Text) : parseImfFixdateUnixSeconds value = .ok none ∨
    ∃ target, parseImfFixdateUnixSeconds value = .ok (some target) ∧
      hasDateShape (utf8Bytes value) = true ∧ FieldsExist (utf8Bytes value) := by
  unfold parseImfFixdateUnixSeconds
  dsimp only
  cases hshape : hasDateShape (utf8Bytes value) with
  | false => exact Or.inl rfl
  | true =>
    obtain hnone | ⟨day, hday, month, hmonth, year, hyear, hour, hhour, minute, hminute, second,
      hsecond, sday, smonth, syear, shour, sminute, ssecond, hfields⟩ :=
      readFields_cases (hasDateShape_length hshape)
    · rw [hnone]
      exact Or.inl rfl
    rw [hfields]
    simp only [Bool.not_true, Bool.false_eq_true, if_false, bind, Except.bind, daysInMonth_eq]
    by_cases hexists : day = 0 ∨ monthLength year month < day ∨ 23 < hour ∨ 59 < minute ∨ 59 < second
    · rw [if_pos hexists]
      exact Or.inl rfl
    · rw [if_neg hexists]
      have hlength : 1 ≤ day ∧ day ≤ monthLength year month := by omega
      have hmonths := @monthLength_of_mem year month hmonth
      have hyears : 0 ≤ (year : ℤ) ∧ (year : ℤ) ≤ 9999 := by omega
      rw [daysFromCivil_eq hyears hmonth (by omega)]
      dsimp only
      rw [secondsOf_eq (civilDays_bounds hyears hmonth (by omega)) (by omega) (by omega) (by omega)]
      refine Or.inr ⟨_, rfl, trivial, ⟨year, month, day, hlength⟩, hour, minute, second, hyears,
        by omega, by omega, by omega, sday, smonth, ?_, shour, sminute, ssecond⟩
      simpa using syear

end

section
/-! The delay. -/

theorem digit_byte_ne_comma {c : Char} (hc : isAsciiDigit c = true ∨ c = '+') :
    (0x2C : UInt8) ∉ String.utf8EncodeChar c := by
  obtain hc | rfl := hc
  · simp only [isAsciiDigit, Char.isDigit, Bool.and_eq_true, decide_eq_true_eq] at hc
    have hlow : 48 ≤ c.toNat := UInt32.le_iff_toNat_le.mp hc.1
    have hhigh : c.toNat ≤ 57 := UInt32.le_iff_toNat_le.mp hc.2
    have hchar : c = Char.ofNat c.toNat := (Char.ofNat_toNat c).symm
    rw [hchar]
    interval_cases c.toNat <;> decide
  · decide

/-- A number has digits only, behind a sign. -/
theorem parseU64_chars {value : Text} {n : ℕ} (h : parseU64 value = some n) :
    ∀ c ∈ value, isAsciiDigit c = true ∨ c = '+' := by
  unfold parseU64 at h
  dsimp only at h
  split at h
  · rename_i rest
    split_ifs at h with hdigits
    simp only [Bool.and_eq_true, List.all_eq_true] at hdigits
    intro c hc
    obtain rfl | hc := List.mem_cons.mp hc
    · exact Or.inr rfl
    · exact Or.inl (hdigits.1.2 c hc)
  · split_ifs at h with hdigits
    simp only [Bool.and_eq_true, List.all_eq_true] at hdigits
    exact fun c hc => Or.inl (hdigits.1.2 c hc)

/-- A date is no number. -/
theorem parseU64_of_dateShape {value : Text} (h : hasDateShape (utf8Bytes value) = true) :
    parseU64 value = none := by
  have hcomma : (0x2C : UInt8) ∈ utf8Bytes value := by
    simp only [hasDateShape, Bool.and_eq_true, decide_eq_true_eq] at h
    have hslice : slice (utf8Bytes value) 3 5 = asciiBytes ", " := h.1.1.1.1.1.1.1.2
    have hmem : (0x2C : UInt8) ∈ slice (utf8Bytes value) 3 5 := by
      rw [hslice]
      decide
    exact List.mem_of_mem_drop (List.mem_of_mem_take hmem)
  obtain ⟨c, hc, hbyte⟩ := List.mem_flatMap.mp hcomma
  by_contra hsome
  obtain ⟨n, hn⟩ := Option.ne_none_iff_exists'.mp hsome
  exact digit_byte_ne_comma (parseU64_chars hn c hc) hbyte

/-- The distance to a date as a delay: none behind the date, and at most the cap. -/
def cappedDelay (distance : ℤ) : ℕ :=
  if distance ≤ 0 then 0 else if distance < maxRetryDelay then distance.toNat else maxRetryDelay

theorem min_saturating (distance : ℤ) :
    min (max (saturatingI64 distance) 0).toNat maxRetryDelay = cappedDelay distance := by
  rw [cappedDelay, saturatingI64, maxRetryDelay]
  split_ifs <;> omega

theorem boundedRetryAfter_number {value : Text} {seconds : ℕ}
    (h : parseU64 (trim value) = some seconds) (now : Int64) :
    boundedRetryAfter value now = .ok (some (min seconds maxRetryDelay)) := by
  simp only [boundedRetryAfter, h]

theorem boundedRetryAfter_date {value : Text} {target : ℤ}
    (h : parseImfFixdateUnixSeconds (trim value) = .ok (some target)) (now : Int64) :
    boundedRetryAfter value now = .ok (some (cappedDelay (target - now.toInt))) := by
  have hnumber : parseU64 (trim value) = none := by
    obtain hnone | ⟨_, _, hshape, -⟩ := parse_cases (trim value)
    · simp [h] at hnone
    · exact parseU64_of_dateShape hshape
  simp only [boundedRetryAfter, hnumber, h, bind, Except.bind, min_saturating]

theorem boundedRetryAfter_other {value : Text} (hnumber : parseU64 (trim value) = none)
    (hdate : parseImfFixdateUnixSeconds (trim value) = .ok none) (now : Int64) :
    boundedRetryAfter value now = .ok none := by
  simp only [boundedRetryAfter, hnumber, hdate, bind, Except.bind]

theorem cappedDelay_le (distance : ℤ) : cappedDelay distance ≤ maxRetryDelay := by
  rw [cappedDelay]
  split_ifs <;> omega

/-- The instants whose dates a header can carry. -/
def Written (instant : ℤ) : Prop := 0 ≤ (utcDate instant).year ∧ (utcDate instant).year ≤ 9999

/-- Dates are read exactly and in their order, only dates that exist are read, and the delay is
that of the number or of the date within the cap; no value overflows. -/
theorem retryAfter_exact :
    (∀ instant, Written instant →
      parseImfFixdateUnixSeconds (imfFixdate instant) = .ok (some (unixSeconds instant))) ∧
    (∀ earlier later, Written earlier → Written later → unixSeconds earlier < unixSeconds later →
      ∃ s t, parseImfFixdateUnixSeconds (imfFixdate earlier) = .ok (some s) ∧
        parseImfFixdateUnixSeconds (imfFixdate later) = .ok (some t) ∧ s < t) ∧
    (∀ value, ¬ FieldsExist (utf8Bytes value) → parseImfFixdateUnixSeconds value = .ok none) ∧
    ∀ value (now : Int64),
      (∀ seconds, parseU64 (trim value) = some seconds →
        boundedRetryAfter value now = .ok (some (min seconds maxRetryDelay))) ∧
      (∀ target, parseImfFixdateUnixSeconds (trim value) = .ok (some target) →
        boundedRetryAfter value now = .ok (some (cappedDelay (target - now.toInt)))) ∧
      ∃ outcome, boundedRetryAfter value now = .ok outcome ∧
        (∀ delay, outcome = some delay → delay ≤ maxRetryDelay) ∧
        (outcome = none ↔ parseU64 (trim value) = none ∧
          parseImfFixdateUnixSeconds (trim value) = .ok none) := by
  refine ⟨fun instant h => parse_imfFixdate h, fun earlier later hearlier hlater hlt => ?_,
    fun value hfields => ?_, fun value now => ⟨fun seconds h => ?_, fun target h => ?_, ?_⟩⟩
  · exact ⟨_, _, parse_imfFixdate hearlier, parse_imfFixdate hlater, hlt⟩
  · obtain hnone | ⟨_, _, -, hexist⟩ := parse_cases value
    · exact hnone
    · exact absurd hexist hfields
  · exact boundedRetryAfter_number h now
  · exact boundedRetryAfter_date h now
  · cases hnumber : parseU64 (trim value) with
    | some seconds =>
      refine ⟨_, boundedRetryAfter_number hnumber now, ?_, by simp⟩
      rintro delay ⟨⟩
      exact Nat.min_le_right _ _
    | none =>
      obtain hdate | ⟨target, hdate, -⟩ := parse_cases (trim value)
      · exact ⟨_, boundedRetryAfter_other hnumber hdate now, by simp, by simp [hdate]⟩
      · refine ⟨_, boundedRetryAfter_date hdate now, ?_, by simp [hdate]⟩
        rintro delay ⟨⟩
        exact cappedDelay_le _

/-- A value that is neither a number nor a date gives no delay. -/
theorem other_value_without_delay : ¬ ∀ value (now : Int64),
    ∃ delay, boundedRetryAfter value now = .ok (some delay) ∧ delay ≤ maxRetryDelay := by
  intro h
  obtain ⟨delay, hdelay, -⟩ := h "not-a-delay".toList 0
  revert hdelay
  rw [show boundedRetryAfter "not-a-delay".toList 0 = .ok none by decide +kernel]
  simp

end
end DeepseekScience.RetryAfter
