import Mathlib

/-!
# The calendar of the real-time clock

`rtc_next_second` of `hw/mc146818rtc.c` steps a date, and `mktimegm` of `cutils.c` gives its distance
from 1970.  The formula multiplies in `int`, which is too short from January 20, 2038 on.
-/

namespace Qemu.Hw.Rtc

/-- `struct tm`. -/
structure Tm where
  sec : Int
  min : Int
  hour : Int
  mday : Int
  mon : Int
  year : Int
  wday : Int

def getDaysInMonth (month year : Int) : Int :=
  if month < 0 ∨ 12 ≤ month then 31
  else
    let d := [31, 28, 31, 30, 31, 30, 31, 31, 30, 31, 30, 31].getD month.toNat 0
    if month = 1 ∧ year.tmod 4 = 0 ∧ (year.tmod 100 ≠ 0 ∨ year.tmod 400 = 0) then d + 1 else d

/-- The comparison of a counter, as an `unsigned`, with its bound. -/
abbrev overflows (counter bound : Int) : Prop := counter < 0 ∨ bound ≤ counter

/-- The part of `rtc_next_second` after midnight. -/
def nextDay (tm : Tm) : Tm :=
  let tm := { tm with wday := if overflows (tm.wday + 1) 7 then 0 else tm.wday + 1 }
  if tm.mday + 1 < 1 then { tm with mday := 1 }
  else if getDaysInMonth tm.mon (tm.year + 1900) < tm.mday + 1 then
    if 12 ≤ tm.mon + 1 then { tm with mday := 1, mon := 0, year := tm.year + 1 }
    else { tm with mday := 1, mon := tm.mon + 1 }
  else { tm with mday := tm.mday + 1 }

def rtcNextSecond (tm : Tm) : Tm :=
  if ¬overflows (tm.sec + 1) 60 then { tm with sec := tm.sec + 1 }
  else if ¬overflows (tm.min + 1) 60 then { tm with sec := 0, min := tm.min + 1 }
  else if ¬overflows (tm.hour + 1) 24 then { tm with sec := 0, min := 0, hour := tm.hour + 1 }
  else nextDay { tm with sec := 0, min := 0, hour := 0 }

/-- The result of an operation on `int`s, which is undefined outside 32 bits. -/
def int (result : Int) : Option Int :=
  if -2 ^ 31 ≤ result ∧ result < 2 ^ 31 then some result else none

/-- The days that `mktimegm` computes from a year and a month that start in March. -/
def marchDays (y m d : Int) : Option Int := do
  let months ← int ((← int (153 * m)) - 457)
  let d ← int (d + months.tdiv 5)
  let d ← int (d + (← int (365 * y)))
  let d ← int (d + y.tdiv 4)
  let d ← int (d - y.tdiv 100)
  let d ← int (d + y.tdiv 400)
  int (d - 719469)

/-- The number that `mktimegm` multiplies by 86400. -/
def days (tm : Tm) : Option Int := do
  let y ← int (tm.year + 1900)
  let m ← int (tm.mon + 1)
  if m < 3 then marchDays (← int (y - 1)) (← int (m + 12)) tm.mday else marchDays y m tm.mday

/-- `mktimegm`, with a `time_t` of 64 bits. -/
def mktimegm (tm : Tm) : Option Int := do
  let t ← int (86400 * (← days tm))
  let s ← int ((← int (3600 * tm.hour)) + (← int (60 * tm.min)))
  let s ← int (s + tm.sec)
  return t + s

def epoch : Tm := ⟨0, 0, 0, 1, 0, 70, 4⟩

/-! ## Dates as numbers -/

/-- The days before a month of a year that starts in March, counted from 1970. -/
def marchBefore (y m : Int) : Int :=
  (153 * m - 457) / 5 + 365 * y + y / 4 - y / 100 + y / 400 - 719469

def daysBefore (mon year : Int) : Int :=
  if mon < 2 then marchBefore (year + 1899) (mon + 13) else marchBefore (year + 1900) (mon + 1)

def dayNumber (tm : Tm) : Int := tm.mday + daysBefore tm.mon tm.year

def secondOfDay (tm : Tm) : Int := 3600 * tm.hour + 60 * tm.min + tm.sec

structure Tm.Valid (tm : Tm) : Prop where
  sec : 0 ≤ tm.sec ∧ tm.sec < 60
  min : 0 ≤ tm.min ∧ tm.min < 60
  hour : 0 ≤ tm.hour ∧ tm.hour < 24
  mday : 1 ≤ tm.mday ∧ tm.mday ≤ getDaysInMonth tm.mon (tm.year + 1900)
  mon : 0 ≤ tm.mon ∧ tm.mon < 12
  year : 70 ≤ tm.year

/-- The seconds since 1970. -/
def instant (tm : Tm) : Int := 86400 * dayNumber tm + secondOfDay tm

/-- A date of the Gregorian calendar with its weekday, and a time of the day. -/
structure Tm.Dated (tm : Tm) : Prop where
  sec : 0 ≤ tm.sec ∧ tm.sec < 60
  min : 0 ≤ tm.min ∧ tm.min < 60
  hour : 0 ≤ tm.hour ∧ tm.hour < 24
  mday : 1 ≤ tm.mday ∧ tm.mday ≤ getDaysInMonth tm.mon (tm.year + 1900)
  mon : 0 ≤ tm.mon ∧ tm.mon < 12
  wday : tm.wday = (dayNumber tm + 4) % 7

/-- The lengths of the months, leap years among them, are the differences of the formula. -/
theorem daysBefore_next {mon : Int} (inside : 0 ≤ mon ∧ mon < 12) (year : Int) :
    (if 12 ≤ mon + 1 then daysBefore 0 (year + 1) else daysBefore (mon + 1) year) =
      daysBefore mon year + getDaysInMonth mon (year + 1900) := by
  obtain ⟨low, high⟩ := inside
  simp only [getDaysInMonth, ← Int.dvd_iff_tmod_eq_zero, ne_eq]
  interval_cases mon <;> simp [daysBefore, marchBefore] <;> omega

theorem getDaysInMonth_bounds {mon year : Int} (inside : 0 ≤ mon ∧ mon < 12) :
    1 ≤ getDaysInMonth mon year ∧ getDaysInMonth mon year ≤ 31 := by
  obtain ⟨low, high⟩ := inside
  unfold getDaysInMonth
  interval_cases mon <;> simp
  split <;> decide

variable {tm : Tm}

theorem nextDay_dated (dated : tm.Dated) : (nextDay tm).Dated ∧
    dayNumber (nextDay tm) = dayNumber tm + 1 ∧ tm.year ≤ (nextDay tm).year := by
  have ⟨_, _, _, mday, mon, wday⟩ := dated
  have months := daysBefore_next mon tm.year
  unfold nextDay
  unfold dayNumber at *
  simp only
  rw [if_neg (by omega)]
  split
  · split
    · have first := @getDaysInMonth_bounds 0 (tm.year + 1 + 1900) (by decide)
      refine ⟨{ dated with mday := ⟨le_rfl, first.1⟩, mon := by simp, wday := ?_ }, ?_, by simp⟩
      all_goals simp [dayNumber]; omega
    · have first := @getDaysInMonth_bounds (tm.mon + 1) (tm.year + 1900) (by omega)
      refine ⟨{ dated with mday := ⟨le_rfl, first.1⟩, mon := ?_, wday := ?_ }, ?_, le_rfl⟩
      all_goals simp [dayNumber]; omega
  · refine ⟨{ dated with mday := ?_, wday := ?_ }, ?_, le_rfl⟩
    all_goals simp [dayNumber]; omega

theorem secondOfDay_nextDay : secondOfDay (nextDay tm) = secondOfDay tm := by
  simp only [nextDay, secondOfDay]
  split_ifs <;> rfl

theorem rtcNextSecond_dated (dated : tm.Dated) : (rtcNextSecond tm).Dated ∧
    instant (rtcNextSecond tm) = instant tm + 1 ∧ tm.year ≤ (rtcNextSecond tm).year := by
  have ⟨sec, min, hour, _, _, _⟩ := dated
  unfold rtcNextSecond
  split
  · exact ⟨{ dated with sec := by simp; omega },
      by simp [instant, dayNumber, secondOfDay]; omega, le_rfl⟩
  split
  · exact ⟨{ dated with sec := by simp, min := by simp; omega },
      by simp [instant, dayNumber, secondOfDay]; omega, le_rfl⟩
  split
  · exact ⟨{ dated with sec := by simp, min := by simp, hour := by simp; omega },
      by simp [instant, dayNumber, secondOfDay]; omega, le_rfl⟩
  · obtain ⟨next, days, later⟩ := @nextDay_dated { tm with sec := 0, min := 0, hour := 0 }
      { dated with sec := by simp, min := by simp, hour := by simp }
    refine ⟨next, ?_, later⟩
    rw [instant, days, secondOfDay_nextDay]
    simp [instant, dayNumber, secondOfDay]
    omega

theorem iterate_dated (dated : tm.Dated) (n : Nat) : (rtcNextSecond^[n] tm).Dated ∧
    instant (rtcNextSecond^[n] tm) = instant tm + n ∧ tm.year ≤ (rtcNextSecond^[n] tm).year := by
  induction n with
  | zero => exact ⟨dated, (Int.add_zero _).symm, le_rfl⟩
  | succ n ih =>
    rw [Function.iterate_succ_apply']
    obtain ⟨next, number, later⟩ := rtcNextSecond_dated ih.1
    exact ⟨next, by rw [number, ih.2.1]; push_cast; omega, ih.2.2.trans later⟩

theorem iterate_valid (n : Nat) : (rtcNextSecond^[n] epoch).Valid ∧
    instant (rtcNextSecond^[n] epoch) = n := by
  have start : epoch.Dated := by constructor <;> decide
  obtain ⟨dated, number, later⟩ := iterate_dated start n
  exact ⟨{ dated with year := later }, by rw [number, show instant epoch = 0 from rfl, Int.zero_add]⟩

theorem int_bind {α : Type} {result : Int} {next : Int → Option α}
    (fits : -2 ^ 31 ≤ result ∧ result < 2 ^ 31) : (int result >>= next) = next result := by
  rw [int, if_pos fits]
  rfl

theorem marchDays_eq {y m d : Int} (years : 0 ≤ y ∧ y < 10000) (months : 3 ≤ m ∧ m ≤ 14)
    (days : 1 ≤ d ∧ d ≤ 31) : marchDays y m d = some (d + marchBefore y m) := by
  have nonneg : 0 ≤ 153 * m - 457 := by omega
  rw [marchDays, int_bind (by omega), int_bind (by omega)]
  simp only [Int.tdiv_eq_ediv_of_nonneg nonneg, Int.tdiv_eq_ediv_of_nonneg years.1]
  rw [int_bind (by omega), int_bind (by omega), int_bind (by omega), int_bind (by omega),
    int_bind (by omega), int_bind (by omega), int, if_pos (by omega), marchBefore]
  congr 1
  omega

theorem secondOfDay_bounds (valid : tm.Valid) : 0 ≤ secondOfDay tm ∧ secondOfDay tm < 86400 := by
  have ⟨sec, min, hour, _, _, _⟩ := valid
  unfold secondOfDay
  omega

/-- All operations but the multiplication by 86400 stay inside `int`. -/
theorem mktimegm_eq (valid : tm.Valid) (early : tm.year + 1900 < 10000) :
    mktimegm tm = (int (86400 * dayNumber tm)).map (· + secondOfDay tm) := by
  have ⟨sec, min, hour, inMonth, mon, year⟩ := valid
  have mday : 1 ≤ tm.mday ∧ tm.mday ≤ 31 :=
    ⟨inMonth.1, inMonth.2.trans (getDaysInMonth_bounds mon).2⟩
  have count : days tm = some (dayNumber tm) := by
    rw [days, int_bind (by omega), int_bind (by omega), dayNumber, daysBefore]
    split
    · have shifted : tm.year + 1900 - 1 = tm.year + 1899 ∧ tm.mon + 1 + 12 = tm.mon + 13 := by omega
      rw [int_bind (by omega), int_bind (by omega), shifted.1, shifted.2,
        marchDays_eq (by omega) (by omega) mday, if_pos (by omega)]
    · rw [marchDays_eq (by omega) (by omega) mday, if_neg (by omega)]
  have clock (t : Int) : (do
      let s ← int ((← int (3600 * tm.hour)) + (← int (60 * tm.min)))
      let s ← int (s + tm.sec)
      return t + s) = some (t + secondOfDay tm) := by
    rw [int_bind (by omega), int_bind (by omega), int_bind (by omega), int_bind (by omega)]
    rfl
  rw [mktimegm, count, Option.map_eq_bind]
  simp only [clock]
  rfl

end Qemu.Hw.Rtc
