import DeepseekScience.Llm.RetryAfter

/-! The dates of `Retry-After` are read exactly: the conversion of a date counts the days of the
calendar, and the reader takes back what an instant is written as. -/
namespace DeepseekScience.RetryAfter

open Redaction Calendar

section
/-! The conversion of a date. -/

/-- The days in front of the March of a year, up to a constant. -/
def marchDays (year : ℤ) : ℤ := 365 * year + year / 4 - year / 100 + year / 400

/-- The year that a month counts for when years begin in March. -/
def marchYear (year : ℤ) (month : ℕ) : ℤ := year - if month ≤ 2 then 1 else 0

def marchMonth (month : ℕ) : ℤ := (month : ℤ) + if 2 < month then -3 else 9

/-- What `daysFromCivil` computes, without the bounds of machine integers. -/
def civilDays (year : ℤ) (month day : ℕ) : ℤ :=
  marchDays (marchYear year month) + (153 * marchMonth month + 2) / 5 + day - 719469

theorem i64_eq {n : ℤ} (h : -2 ^ 63 ≤ n ∧ n < 2 ^ 63) : i64 n = .ok n := if_pos h

theorem u32_eq {n : ℕ} (h : n < 2 ^ 32) : u32 n = .ok n := if_pos h

theorem tdiv_eq_div {n k : ℤ} (h : 0 ≤ n) : n.tdiv k = n / k := Int.tdiv_eq_ediv_of_nonneg h

/-- The era of a year: the truncating division of the source rounds down. -/
theorem era_eq {year shifted : ℤ} (hyear : -1 ≤ year)
    (h : shifted = if 0 ≤ year then year else year - 399) : shifted.tdiv 400 = year / 400 := by
  split_ifs at h with hpos
  · rw [h, tdiv_eq_div hpos]
  · obtain rfl : year = -1 := by omega
    rw [h]
    decide

theorem daysFromCivil_eq {year : ℤ} {month day : ℕ} (hyear : 0 ≤ year ∧ year ≤ 9999)
    (hmonth : 1 ≤ month ∧ month ≤ 12) (hday : day ≤ 31) :
    daysFromCivil year month day = .ok (civilDays year month day) := by
  have hmarch : -1 ≤ marchYear year month ∧ marchYear year month ≤ 9999 := by
    rw [marchYear]
    split_ifs <;> omega
  have hshifted : 0 ≤ marchMonth month ∧ marchMonth month ≤ 11 := by
    rw [marchMonth]
    split_ifs <;> omega
  have hera : ∀ shifted, (shifted = if 0 ≤ marchYear year month then marchYear year month else
      marchYear year month - 399) → shifted.tdiv 400 = marchYear year month / 400 :=
    fun shifted h => era_eq hmarch.1 h
  unfold daysFromCivil civilDays marchDays
  have hfirst : year - (if month ≤ 2 then 1 else 0) = marchYear year month := rfl
  have hmonths : (month : ℤ) + (if 2 < month then -3 else 9) = marchMonth month := rfl
  rw [hfirst, hmonths]
  generalize marchYear year month = y at *
  generalize marchMonth month = m at *
  have hstart : eraDividend y = .ok (if 0 ≤ y then y else y - 399) := by
    rw [eraDividend]
    split_ifs
    · rfl
    · exact i64_eq (by omega)
  have hera := hera _ rfl
  have hfour : (y - y / 400 * 400).tdiv 4 = (y - y / 400 * 400) / 4 := tdiv_eq_div (by omega)
  have hhundred : (y - y / 400 * 400).tdiv 100 = (y - y / 400 * 400) / 100 :=
    tdiv_eq_div (by omega)
  have hfive : (153 * m + 2).tdiv 5 = (153 * m + 2) / 5 := tdiv_eq_div (by omega)
  simp (disch := omega) only [i64_eq, hstart, hera, hfour, hhundred, hfive, bind, Except.bind]
  congr 1
  omega

/-- A year from March to March: the day of a leap year is its last one. -/
theorem marchDays_succ (year : ℤ) : marchDays (year + 1) =
    marchDays year + if isLeap (year + 1) then 366 else 365 := by
  simp only [marchDays, isLeap, Bool.and_eq_true, Bool.or_eq_true, decide_eq_true_eq]
  split_ifs <;> omega

/-- The first of a month follows the last day of the month before, within a year. -/
theorem civilDays_month {year : ℤ} {month : ℕ} (hmonth : 1 ≤ month ∧ month < 12) :
    civilDays year (month + 1) 1 = civilDays year month (monthLength year month) + 1 := by
  obtain ⟨hfirst, hlast⟩ := hmonth
  have hyear := marchDays_succ (year - 1)
  rw [sub_add_cancel] at hyear
  unfold civilDays marchYear marchMonth monthLength
  interval_cases month <;> simp <;> (try split_ifs at hyear ⊢) <;> omega

theorem civilDays_year (year : ℤ) : civilDays (year + 1) 1 1 = civilDays year 12 31 + 1 := by
  simp only [civilDays, marchYear, marchMonth]
  norm_num
  omega

def dateNumber (d : Date) : ℤ := civilDays d.year d.month d.day

/-- The conversion counts the days of the calendar. -/
theorem dateNumber_next (d : Date) : dateNumber d.next = dateNumber d + 1 := by
  unfold dateNumber
  have hvalid := d.valid
  have hmonth := d.month_mem
  rw [Date.next]
  split_ifs with hday hlast
  · simp only [civilDays]
    omega
  · have hlength : d.day = monthLength d.year d.month := by omega
    rw [hlength]
    exact civilDays_month ⟨hmonth.1, hlast⟩
  · have htwelve : d.month = 12 := by omega
    rw [htwelve] at hvalid hday ⊢
    have hlength : d.day = 31 := by
      have hdecember : monthLength d.year 12 = 31 := by simp [monthLength]
      omega
    rw [hlength]
    exact civilDays_year d.year

theorem dateNumber_ofUnixDay (day : ℤ) : dateNumber (ofUnixDay day) = day := by
  have hepoch : dateNumber unixEpoch = 0 := by decide
  rw [ofUnixDay, Date.number_shift unixEpoch dateNumber_next, hepoch, zero_add]

theorem daysInMonth_eq (year month : ℕ) : daysInMonth year month = monthLength year month := by
  have htmod : ∀ k : ℤ, (year : ℤ).tmod k = (year : ℤ) % k :=
    fun k => Int.tmod_eq_emod_of_nonneg (by omega)
  by_cases hmonth : 1 ≤ month ∧ month ≤ 12
  · obtain ⟨hfirst, hlast⟩ := hmonth
    rw [daysInMonth, monthLength, isLeap, htmod, htmod, htmod]
    interval_cases month <;> simp
  · rw [daysInMonth, monthLength, if_neg (by simp; omega), if_neg (by simp; omega),
      if_neg (by omega), if_neg (by omega), if_neg (by omega), if_neg (by simp; omega),
      if_neg hmonth]

end

section
/-! The fields of a written date. -/

def digitByte (n : ℕ) : UInt8 := 0x30 + UInt8.ofNat (n % 10)

theorem utf8Bytes_digit (n : ℕ) : utf8Bytes [digit n] = [digitByte n] := by
  have hn : n % 10 < 10 := Nat.mod_lt n (by omega)
  rw [digit, digitByte]
  interval_cases n % 10 <;> rfl

theorem digitByte_isDigit (n : ℕ) : isDigitByte (digitByte n) = true := by
  have hn : n % 10 < 10 := Nat.mod_lt n (by omega)
  rw [digitByte]
  interval_cases n % 10 <;> rfl

theorem digitByte_value (n : ℕ) : (digitByte n).toNat - 0x30 = n % 10 := by
  have hn : n % 10 < 10 := Nat.mod_lt n (by omega)
  rw [digitByte]
  interval_cases n % 10 <;> rfl

theorem parseAsciiNumberFrom_digit {value : ℕ} (h : value < 10 ^ 8) (n : ℕ) (bytes : List UInt8) :
    parseAsciiNumberFrom value (digitByte n :: bytes) =
      parseAsciiNumberFrom (value * 10 + n % 10) bytes := by
  rw [parseAsciiNumberFrom, if_pos (digitByte_isDigit n), digitByte_value, u32_eq (by omega)]
  show (u32 (value * 10 + n % 10) >>= fun value => parseAsciiNumberFrom value bytes) = _
  rw [u32_eq (by omega)]
  rfl

/-- The digits of a number, as the bytes they are written with. -/
def twoBytes (n : ℕ) : List UInt8 := [digitByte (n / 10), digitByte n]

def fourBytes (n : ℕ) : List UInt8 :=
  [digitByte (n / 1000), digitByte (n / 100), digitByte (n / 10), digitByte n]

theorem parseAsciiNumber_twoBytes {n : ℕ} (h : n < 100) :
    parseAsciiNumber (twoBytes n) = .ok (some n) := by
  rw [parseAsciiNumber, twoBytes, parseAsciiNumberFrom_digit (by omega),
    parseAsciiNumberFrom_digit (by omega), parseAsciiNumberFrom]
  congr 2
  omega

theorem parseAsciiNumber_fourBytes {n : ℕ} (h : n < 10000) :
    parseAsciiNumber (fourBytes n) = .ok (some n) := by
  rw [parseAsciiNumber, fourBytes, parseAsciiNumberFrom_digit (by omega),
    parseAsciiNumberFrom_digit (by omega), parseAsciiNumberFrom_digit (by omega),
    parseAsciiNumberFrom_digit (by omega), parseAsciiNumberFrom]
  congr 2
  omega

/-- The bytes of a date behind its day of the week. -/
def fieldBytes (name : List UInt8) (day year hour minute second : ℕ) : List UInt8 :=
  asciiBytes ", " ++ twoBytes day ++ asciiBytes " " ++ name ++ asciiBytes " " ++ fourBytes year ++
    asciiBytes " " ++ twoBytes hour ++ asciiBytes ":" ++ twoBytes minute ++ asciiBytes ":" ++
    twoBytes second ++ asciiBytes " GMT"

variable {w m : List UInt8} {day month year hour minute second : ℕ}

theorem hasDateShape_fields (hw : w.length = 3) (hm : m.length = 3) :
    hasDateShape (w ++ fieldBytes m day year hour minute second) = true := by
  obtain ⟨w0, w1, w2, rfl⟩ := List.length_eq_three.mp hw
  obtain ⟨m0, m1, m2, rfl⟩ := List.length_eq_three.mp hm
  rfl

theorem readFields_fields (hw : w.length = 3) (hm : m.length = 3) (hday : day < 100)
    (hmonth : monthNumber m = some month) (hyear : year < 10000) (hhour : hour < 100)
    (hminute : minute < 100) (hsecond : second < 100) :
    readFields (w ++ fieldBytes m day year hour minute second) =
      .ok (some ⟨day, month, year, hour, minute, second⟩) := by
  obtain ⟨w0, w1, w2, rfl⟩ := List.length_eq_three.mp hw
  obtain ⟨m0, m1, m2, rfl⟩ := List.length_eq_three.mp hm
  have hslices :
      let bytes := [w0, w1, w2] ++ fieldBytes [m0, m1, m2] day year hour minute second
      slice bytes 5 7 = twoBytes day ∧ slice bytes 8 11 = [m0, m1, m2] ∧
        slice bytes 12 16 = fourBytes year ∧ slice bytes 17 19 = twoBytes hour ∧
        slice bytes 20 22 = twoBytes minute ∧ slice bytes 23 25 = twoBytes second :=
    ⟨rfl, rfl, rfl, rfl, rfl, rfl⟩
  obtain ⟨sday, smonth, syear, shour, sminute, ssecond⟩ := hslices
  simp only [readFields, sday, smonth, syear, shour, sminute, ssecond, hmonth,
    parseAsciiNumber_twoBytes hday, parseAsciiNumber_fourBytes hyear,
    parseAsciiNumber_twoBytes hhour, parseAsciiNumber_twoBytes hminute,
    parseAsciiNumber_twoBytes hsecond, bind, Except.bind]

end

section
/-! What an instant is written as. -/

theorem utf8Bytes_append (s t : Text) : utf8Bytes (s ++ t) = utf8Bytes s ++ utf8Bytes t :=
  List.flatMap_append

theorem utf8Bytes_twoDigits (n : ℕ) : utf8Bytes (twoDigits n) = twoBytes n := by
  rw [twoDigits, ← List.singleton_append, utf8Bytes_append, utf8Bytes_digit, utf8Bytes_digit]
  rfl

theorem utf8Bytes_fourDigits (n : ℕ) : utf8Bytes (fourDigits n) = fourBytes n := by
  have hsplit : fourDigits n =
      [digit (n / 1000)] ++ [digit (n / 100)] ++ [digit (n / 10)] ++ [digit n] := rfl
  simp only [hsplit, utf8Bytes_append, utf8Bytes_digit]
  rfl

theorem weekday_bytes (day : ℤ) : (utf8Bytes (weekday day)).length = 3 := by
  have hday : (day % 7).toNat < 7 := by omega
  rw [weekday]
  interval_cases (day % 7).toNat <;> rfl

theorem monthName_bytes {month : ℕ} (h : 1 ≤ month ∧ month ≤ 12) :
    (utf8Bytes (monthName month)).length = 3 ∧
      monthNumber (utf8Bytes (monthName month)) = some month := by
  obtain ⟨hfirst, hlast⟩ := h
  rw [monthName]
  interval_cases month <;> exact ⟨rfl, rfl⟩

theorem utf8Bytes_imfFixdate (instant : ℤ) : utf8Bytes (imfFixdate instant) =
    utf8Bytes (weekday (utcDay instant)) ++
      fieldBytes (utf8Bytes (monthName (utcDate instant).month)) (utcDate instant).day
        (utcDate instant).year.toNat (secondOfDay instant / 3600) (secondOfDay instant / 60 % 60)
        (secondOfDay instant % 60) := by
  simp only [imfFixdate, fieldBytes, utf8Bytes_append, utf8Bytes_twoDigits, utf8Bytes_fourDigits,
    asciiBytes, List.append_assoc]

theorem secondsOf_eq {days : ℤ} {hour minute second : ℕ} (hdays : -10 ^ 9 ≤ days ∧ days ≤ 10 ^ 9)
    (hhour : hour < 24) (hminute : minute < 60) (hsecond : second < 60) :
    secondsOf days hour minute second =
      some (days * 86400 + hour * 3600 + minute * 60 + second) := by
  have hchecked : ∀ {n : ℤ}, -2 ^ 63 ≤ n ∧ n < 2 ^ 63 → checkedI64 n = some n := fun h => if_pos h
  simp (disch := omega) only [secondsOf, hchecked, bind, Option.bind]

theorem civilDays_bounds {year : ℤ} {month day : ℕ} (hyear : 0 ≤ year ∧ year ≤ 9999)
    (hmonth : 1 ≤ month ∧ month ≤ 12) (hday : day ≤ 31) :
    -10 ^ 9 ≤ civilDays year month day ∧ civilDays year month day ≤ 10 ^ 9 := by
  unfold civilDays marchDays marchYear marchMonth
  split_ifs <;> omega

/-- The reader on the fields of a date and a time of day that exist. -/
theorem parse_fields {value : Text} {w : List UInt8} {d : Date} {hour minute second : ℕ}
    (hw : w.length = 3) (hyear : 0 ≤ d.year ∧ d.year ≤ 9999) (hhour : hour < 24)
    (hminute : minute < 60) (hsecond : second < 60)
    (hvalue : utf8Bytes value = w ++ fieldBytes (utf8Bytes (monthName d.month)) d.day
      d.year.toNat hour minute second) :
    parseImfFixdateUnixSeconds value =
      .ok (some (dateNumber d * 86400 + hour * 3600 + minute * 60 + second)) := by
  obtain ⟨hmlength, hmonth⟩ := monthName_bytes d.month_mem
  have hvalid := d.valid
  have hlength := @monthLength_of_mem d.year d.month d.month_mem
  have hnat : ((d.year.toNat : ℕ) : ℤ) = d.year := by omega
  unfold parseImfFixdateUnixSeconds
  dsimp only
  rw [hvalue, hasDateShape_fields hw hmlength, readFields_fields hw hmlength (by omega) hmonth
    (by omega) (by omega) (by omega) (by omega)]
  show (if d.day = 0 ∨ daysInMonth _ _ < d.day ∨ 23 < hour ∨ 59 < minute ∨ 59 < second then
    Except.ok none else _) = _
  rw [daysInMonth_eq, hnat, if_neg (by omega), daysFromCivil_eq hyear d.month_mem (by omega)]
  show Except.ok (secondsOf (civilDays d.year d.month d.day) hour minute second) = _
  rw [secondsOf_eq (civilDays_bounds hyear d.month_mem (by omega)) hhour hminute hsecond]
  rfl

theorem secondOfDay_lt (instant : ℤ) : secondOfDay instant < 86400 := by
  rw [secondOfDay]
  omega

/-- The reader takes back the second that an instant lies in. -/
theorem parse_imfFixdate {instant : ℤ}
    (hyear : 0 ≤ (utcDate instant).year ∧ (utcDate instant).year ≤ 9999) :
    parseImfFixdateUnixSeconds (imfFixdate instant) = .ok (some (unixSeconds instant)) := by
  have hsecond := secondOfDay_lt instant
  rw [parse_fields (weekday_bytes _) hyear (by omega) (by omega) (by omega)
    (utf8Bytes_imfFixdate instant), utcDate, dateNumber_ofUnixDay, utcDay]
  have hday : (secondOfDay instant : ℤ) = unixSeconds instant % 86400 := by
    rw [secondOfDay]
    omega
  congr 2
  push_cast
  omega

end
end DeepseekScience.RetryAfter
