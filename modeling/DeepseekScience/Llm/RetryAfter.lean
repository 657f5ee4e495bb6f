import DeepseekScience.Lib.Calendar
import DeepseekScience.Llm.Redaction

/-! The delay that a provider asks for (dss-llm, `client.rs`): a number of seconds, or a date in
the preferred HTTP form, read with machine integers. -/
namespace DeepseekScience.RetryAfter

open Redaction Calendar

section
/-! Machine arithmetic: an operation that overflows panics. -/

inductive Panic where
  | overflow
  deriving DecidableEq

def u32 (n : ℕ) : Except Panic ℕ := if n < 2 ^ 32 then .ok n else .error .overflow

def i64 (n : ℤ) : Except Panic ℤ :=
  if -2 ^ 63 ≤ n ∧ n < 2 ^ 63 then .ok n else .error .overflow

/-- The result of `checked_add` and `checked_mul`. -/
def checkedI64 (n : ℤ) : Option ℤ := if -2 ^ 63 ≤ n ∧ n < 2 ^ 63 then some n else none

/-- The result of `saturating_sub`. -/
def saturatingI64 (n : ℤ) : ℤ := max (-2 ^ 63) (min n (2 ^ 63 - 1))

end

section
/-! The reader of dates. -/

def isDigitByte (b : UInt8) : Bool := decide (0x30 ≤ b) && decide (b ≤ 0x39)

/-- The fold of `parse_ascii_number`. -/
def parseAsciiNumberFrom (value : ℕ) : List UInt8 → Except Panic (Option ℕ)
  | [] => .ok (some value)
  | byte :: bytes =>
    if isDigitByte byte then do
      let shifted ← u32 (value * 10)
      let value ← u32 (shifted + (byte.toNat - 0x30))
      parseAsciiNumberFrom value bytes
    else .ok none

def parseAsciiNumber (bytes : List UInt8) : Except Panic (Option ℕ) := parseAsciiNumberFrom 0 bytes

def daysInMonth (year : ℤ) (month : ℕ) : ℕ :=
  if month ∈ [1, 3, 5, 7, 8, 10, 12] then 31
  else if month ∈ [4, 6, 9, 11] then 30
  else if month = 2 ∧ year.tmod 4 = 0 ∧ (year.tmod 100 ≠ 0 ∨ year.tmod 400 = 0) then 29
  else if month = 2 then 28
  else 0

/-- What is divided to get the era of a year. -/
def eraDividend (year : ℤ) : Except Panic ℤ :=
  if 0 ≤ year then .ok year else i64 (year - 399)

/-- The days since the epoch; divisions truncate. -/
def daysFromCivil (year : ℤ) (month day : ℕ) : Except Panic ℤ := do
  let year ← i64 (year - if month ≤ 2 then 1 else 0)
  let dividend ← eraDividend year
  let era := dividend.tdiv 400
  let erasYears ← i64 (era * 400)
  let yearOfEra ← i64 (year - erasYears)
  let shiftedMonth ← i64 ((month : ℤ) + if 2 < month then -3 else 9)
  let scaledMonth ← i64 (153 * shiftedMonth)
  let roundedMonth ← i64 (scaledMonth + 2)
  let dayOfMonth ← i64 (roundedMonth.tdiv 5 + day)
  let dayOfYear ← i64 (dayOfMonth - 1)
  let plainDays ← i64 (yearOfEra * 365)
  let julianDays ← i64 (plainDays + yearOfEra.tdiv 4)
  let gregorianDays ← i64 (julianDays - yearOfEra.tdiv 100)
  let dayOfEra ← i64 (gregorianDays + dayOfYear)
  let eraDays ← i64 (era * 146097)
  let days ← i64 (eraDays + dayOfEra)
  i64 (days - 719468)

def asciiBytes (s : String) : List UInt8 := utf8Bytes s.toList

/-- The names of the months, from the first one. -/
def monthNames : List String :=
  ["Jan", "Feb", "Mar", "Apr", "May", "Jun", "Jul", "Aug", "Sep", "Oct", "Nov", "Dec"]

/-- The number of a month by its name. -/
def monthNumber (name : List UInt8) : Option ℕ :=
  (monthNames.findIdx? fun month => asciiBytes month = name).map (· + 1)

def slice (bytes : List UInt8) (start stop : ℕ) : List UInt8 := (bytes.drop start).take (stop - start)

/-- The punctuation of a date: the bytes that have to stand at fixed places. -/
def hasDateShape (bytes : List UInt8) : Bool :=
  bytes.length = 29 && slice bytes 3 5 = asciiBytes ", " && slice bytes 7 8 = asciiBytes " " &&
    slice bytes 11 12 = asciiBytes " " && slice bytes 16 17 = asciiBytes " " &&
    slice bytes 19 20 = asciiBytes ":" && slice bytes 22 23 = asciiBytes ":" &&
    slice bytes 25 26 = asciiBytes " " && slice bytes 26 29 = asciiBytes "GMT"

/-- The seconds of a checked date and time of day. -/
def secondsOf (days : ℤ) (hour minute second : ℕ) : Option ℤ := do
  let seconds ← checkedI64 (days * 86400)
  let seconds ← checkedI64 (seconds + hour * 3600)
  let seconds ← checkedI64 (seconds + minute * 60)
  checkedI64 (seconds + second)

/-- What stands in the fields of a date, where every field can be read. -/
structure DateFields where
  day : ℕ
  month : ℕ
  year : ℕ
  hour : ℕ
  minute : ℕ
  second : ℕ

def readFields (bytes : List UInt8) : Except Panic (Option DateFields) := do
  match ← parseAsciiNumber (slice bytes 5 7) with
  | none => .ok none
  | some day =>
    match monthNumber (slice bytes 8 11) with
    | none => .ok none
    | some month =>
      match ← parseAsciiNumber (slice bytes 12 16) with
      | none => .ok none
      | some year =>
        match ← parseAsciiNumber (slice bytes 17 19) with
        | none => .ok none
        | some hour =>
          match ← parseAsciiNumber (slice bytes 20 22) with
          | none => .ok none
          | some minute =>
            match ← parseAsciiNumber (slice bytes 23 25) with
            | none => .ok none
            | some second => .ok (some ⟨day, month, year, hour, minute, second⟩)

def parseImfFixdateUnixSeconds (value : Text) : Except Panic (Option ℤ) :=
  let bytes := utf8Bytes value
  if !hasDateShape bytes then .ok none
  else do
    match ← readFields bytes with
    | none => .ok none
    | some ⟨day, month, year, hour, minute, second⟩ =>
      if day = 0 ∨ daysInMonth year month < day ∨ 23 < hour ∨ 59 < minute ∨ 59 < second then
        .ok none
      else do
        let days ← daysFromCivil year month day
        .ok (secondsOf days hour minute second)

end

section
/-! The delay. -/

/-- `str::parse` for an unsigned number of 64 bits. -/
def parseU64 (t : Text) : Option ℕ :=
  let digits := match t with
    | '+' :: rest => rest
    | _ => t
  let value : ℕ := digits.foldl (fun n c => n * 10 + (c.toNat - '0'.toNat)) 0
  if !digits.isEmpty && digits.all isAsciiDigit && decide (value < 2 ^ 64) then some value else none

/-- In seconds. -/
def maxRetryDelay : ℕ := 10

def boundedRetryAfter (value : Text) (nowUnixSeconds : Int64) : Except Panic (Option ℕ) :=
  let value := trim value
  match parseU64 value with
  | some seconds => .ok (some (min seconds maxRetryDelay))
  | none => do
    match ← parseImfFixdateUnixSeconds value with
    | none => .ok none
    | some target =>
      let seconds := (max (saturatingI64 (target - nowUnixSeconds.toInt)) 0).toNat
      .ok (some (min seconds maxRetryDelay))

end

section
/-! Instants, and how they are written. -/

/-- The whole seconds of an instant, which is given in nanoseconds since the epoch. -/
def unixSeconds (instant : ℤ) : ℤ := instant / 10 ^ 9

def utcDay (instant : ℤ) : ℤ := unixSeconds instant / 86400

def utcDate (instant : ℤ) : Date := ofUnixDay (utcDay instant)

def secondOfDay (instant : ℤ) : ℕ := (unixSeconds instant % 86400).toNat

def digit (n : ℕ) : Char := Nat.digitChar (n % 10)

def twoDigits (n : ℕ) : Text := [digit (n / 10), digit n]

def fourDigits (n : ℕ) : Text := [digit (n / 1000), digit (n / 100), digit (n / 10), digit n]

/-- The names of the days of the week, from that of the epoch on. -/
def weekdayNames : List String := ["Thu", "Fri", "Sat", "Sun", "Mon", "Tue", "Wed"]

def weekday (day : ℤ) : Text := (weekdayNames.getD (day % 7).toNat "").toList

def monthName (month : ℕ) : Text := (monthNames.getD (month - 1) "").toList

/-- The preferred form of an HTTP date. -/
def imfFixdate (instant : ℤ) : Text :=
  let date := utcDate instant
  let second := secondOfDay instant
  weekday (utcDay instant) ++ ", ".toList ++ twoDigits date.day ++ " ".toList ++
    monthName date.month ++ " ".toList ++ fourDigits date.year.toNat ++ " ".toList ++
    twoDigits (second / 3600) ++ ":".toList ++ twoDigits (second / 60 % 60) ++ ":".toList ++
    twoDigits (second % 60) ++ " GMT".toList

end
end DeepseekScience.RetryAfter
