import Mathlib.Tactic

/-! The proleptic Gregorian calendar by its day-after function: a date is a day of a month that the
month has, and the days are counted from a date that is given. -/
namespace Calendar

def isLeap (year : ℤ) : Bool := year % 4 = 0 && (year % 100 ≠ 0 || year % 400 = 0)

/-- The days of a month, which is counted from one; months beyond twelve have none. -/
def monthLength (year : ℤ) (month : ℕ) : ℕ :=
  if month = 2 then if isLeap year then 29 else 28
  else if month ∈ [4, 6, 9, 11] then 30
  else if 1 ≤ month ∧ month ≤ 12 then 31
  else 0

/-- A day that exists. -/
@[ext]
structure Date where
  year : ℤ
  month : ℕ
  day : ℕ
  valid : 1 ≤ day ∧ day ≤ monthLength year month
  deriving DecidableEq

theorem monthLength_of_mem {year : ℤ} {month : ℕ} (h : 1 ≤ month ∧ month ≤ 12) :
    28 ≤ monthLength year month ∧ monthLength year month ≤ 31 := by
  rw [monthLength]
  split_ifs <;> omega

theorem month_of_pos {year : ℤ} {month : ℕ} (h : 1 ≤ monthLength year month) :
    1 ≤ month ∧ month ≤ 12 := by
  rw [monthLength] at h
  simp only [List.mem_cons, List.not_mem_nil, or_false] at h
  split_ifs at h <;> omega

namespace Date

variable (d : Date)

theorem month_mem : 1 ≤ d.month ∧ d.month ≤ 12 :=
  month_of_pos (d.valid.1.trans d.valid.2)

/-- The day after. -/
def next : Date :=
  if h : d.day < monthLength d.year d.month then ⟨d.year, d.month, d.day + 1, by omega⟩
  else if hmonth : d.month < 12 then
    ⟨d.year, d.month + 1, 1, by
      have := @monthLength_of_mem d.year (d.month + 1) (by omega)
      omega⟩
  else ⟨d.year + 1, 1, 1, by
    have := @monthLength_of_mem (d.year + 1) 1 (by omega)
    omega⟩

/-- The day before. -/
def prev : Date :=
  if h : 1 < d.day then ⟨d.year, d.month, d.day - 1, by have := d.valid; omega⟩
  else if hmonth : 1 < d.month then
    ⟨d.year, d.month - 1, monthLength d.year (d.month - 1), by
      have := d.month_mem
      have := @monthLength_of_mem d.year (d.month - 1) (by omega)
      omega⟩
  else ⟨d.year - 1, 12, 31, by simp [monthLength]⟩

@[simp] theorem next_prev : d.prev.next = d := by
  have hvalid := d.valid
  have hmonth := d.month_mem
  rw [prev]
  split_ifs with hday hfirst
  · rw [next, dif_pos (by simp only; omega)]
    ext <;> simp only
    omega
  · have hlength := @monthLength_of_mem d.year (d.month - 1) (by omega)
    rw [next, dif_neg (by simp), dif_pos (by simp only; omega)]
    ext <;> simp only <;> omega
  · rw [next, dif_neg (by simp [monthLength]), dif_neg (by simp)]
    ext <;> simp only <;> omega

/-- The date that is some days after a date, or before it. -/
def shift : ℤ → Date
  | .ofNat n => next^[n] d
  | .negSucc n => prev^[n + 1] d

@[simp] theorem shift_zero : d.shift 0 = d := rfl

theorem shift_succ (n : ℤ) : d.shift (n + 1) = (d.shift n).next := by
  cases n with
  | ofNat n =>
    show next^[n + 1] d = (next^[n] d).next
    rw [Function.iterate_succ_apply']
  | negSucc n =>
    cases n with
    | zero => exact d.next_prev.symm
    | succ n =>
      have hn : Int.negSucc (n + 1) + 1 = Int.negSucc n := by omega
      rw [hn]
      show prev^[n + 1] d = (prev^[n + 2] d).next
      rw [Function.iterate_succ_apply' prev (n + 1), next_prev]

/-- A number that grows by one from day to day counts the days. -/
theorem number_shift {number : Date → ℤ} (hnext : ∀ d, number d.next = number d + 1) (n : ℤ) :
    number (d.shift n) = number d + n := by
  induction n using Int.induction_on with
  | zero => simp
  | succ n ih => rw [shift_succ, hnext, ih, add_assoc]
  | pred n ih =>
    have hsucc := shift_succ d (-n - 1)
    rw [sub_add_cancel] at hsucc
    rw [hsucc, hnext] at ih
    omega

end Date

/-- The calendar of Unix time: its days are counted from the first day of 1970. -/
def unixEpoch : Date := ⟨1970, 1, 1, by decide⟩

def ofUnixDay (day : ℤ) : Date := unixEpoch.shift day

end Calendar
