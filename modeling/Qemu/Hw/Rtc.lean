import Qemu.Hw.Calendar

/-!
# The registers of the real-time clock

The time in the registers is binary or BCD, in 12 or 24 hours.  Setting the time from registers that
show it changes nothing, and the clock steps through the Gregorian calendar.  The alarm is compared
with the time and not with the registers, which loses the alarms after noon in the format of 12
hours.
-/

namespace Qemu.Hw.Rtc

/-- The registers that the clock uses. -/
inductive Reg
  | seconds | secondsAlarm | minutes | minutesAlarm | hours | hoursAlarm
  | dayOfWeek | dayOfMonth | month | year | a | b | c
  deriving DecidableEq

structure RTCState where
  cmosData : Reg → BitVec 8
  currentTm : Tm
  baseYear : Int
  /-- How often the interrupt was raised. -/
  irqs : Nat

def RTCState.has (s : RTCState) (reg : Reg) (bit : Nat) : Bool := (s.cmosData reg).getLsbD bit

/-- `REG_B_DM`: the registers are binary. -/
def RTCState.dm (s : RTCState) : Bool := s.has .b 2

/-- `REG_B_24H`. -/
def RTCState.h24 (s : RTCState) : Bool := s.has .b 1

def rtcToBcd (dm : Bool) (a : Nat) : BitVec 8 :=
  .ofNat 8 (if dm then a else (a / 10) <<< 4 ||| a % 10)

def rtcFromBcd (dm : Bool) (a : BitVec 8) : Nat :=
  if dm then a.toNat else (a.toNat >>> 4) * 10 + (a.toNat &&& 0x0f)

/-- The hours as `rtc_set_time` reads them. -/
def hoursFrom (dm h24 : Bool) (a : BitVec 8) : Nat :=
  rtcFromBcd dm (a &&& 0x7f) + if !h24 && a.getLsbD 7 then 12 else 0

/-- The hours as `rtc_copy_date` stores them. -/
def hoursTo (dm h24 : Bool) (hour : Nat) : BitVec 8 :=
  if h24 then rtcToBcd dm hour
  else rtcToBcd dm (hour % 12) ||| if 12 ≤ hour then 0x80 else 0

def rtcSetTime (s : RTCState) : RTCState :=
  let read reg : Int := rtcFromBcd s.dm (s.cmosData reg)
  { s with currentTm :=
    { sec := read .seconds
      min := read .minutes
      hour := hoursFrom s.dm s.h24 (s.cmosData .hours)
      wday := read .dayOfWeek - 1
      mday := read .dayOfMonth
      mon := read .month - 1
      year := read .year + s.baseYear - 1900 } }

/-- The two digits of the year. -/
def shownYear (year baseYear : Int) : Int :=
  let year := (year - baseYear).tmod 100
  if year < 0 then year + 100 else year

/-- `rtc_copy_date`; the numbers that it stores are not negative. -/
def rtcCopyDate (s : RTCState) : RTCState :=
  let tm := s.currentTm
  { s with cmosData := fun
    | .seconds => rtcToBcd s.dm tm.sec.toNat
    | .minutes => rtcToBcd s.dm tm.min.toNat
    | .hours => hoursTo s.dm s.h24 tm.hour.toNat
    | .dayOfWeek => rtcToBcd s.dm (tm.wday + 1).toNat
    | .dayOfMonth => rtcToBcd s.dm tm.mday.toNat
    | .month => rtcToBcd s.dm (tm.mon + 1).toNat
    | .year => rtcToBcd s.dm (shownYear tm.year s.baseYear).toNat
    | reg => s.cmosData reg }

theorem rtcFromBcd_rtcToBcd : ∀ dm, ∀ a < 100, rtcFromBcd dm (rtcToBcd dm a) = a := by
  decide

theorem hoursFrom_hoursTo : ∀ dm h24, ∀ h < 24, hoursFrom dm h24 (hoursTo dm h24 h) = h := by
  decide

attribute [ext] Tm

variable {tm : Tm} {s : RTCState}

theorem rtcSetTime_rtcCopyDate (dated : s.currentTm.Dated)
    (shown : s.baseYear ≤ s.currentTm.year + 1900 ∧ s.currentTm.year + 1900 < s.baseYear + 100) :
    (rtcSetTime (rtcCopyDate s)).currentTm = s.currentTm := by
  have back (a : Int) (range : 0 ≤ a ∧ a < 100) :
      (rtcFromBcd s.dm (rtcToBcd s.dm a.toNat) : Int) = a := by
    rw [rtcFromBcd_rtcToBcd _ _ (by omega)]
    omega
  have ⟨sec, min, hour, mday, mon, wday⟩ := dated
  have short := @getDaysInMonth_bounds _ (s.currentTm.year + 1900) mon
  have digits : shownYear s.currentTm.year s.baseYear = s.currentTm.year + 1900 - s.baseYear := by
    rw [shownYear, ← Int.neg_sub, Int.neg_tmod, Int.tmod_eq_emod_of_nonneg (by omega)]
    omega
  have hours := hoursFrom_hoursTo s.dm s.h24 s.currentTm.hour.toNat (by omega)
  have week := back (s.currentTm.wday + 1) (by omega)
  have month := back (s.currentTm.mon + 1) (by omega)
  have year := back (shownYear s.currentTm.year s.baseYear) (by omega)
  refine Tm.ext (back _ (by omega)) (back _ (by omega)) ?_ (back _ (by omega)) ?_ ?_ ?_
  · exact (congrArg Int.ofNat hours).trans (Int.toNat_of_nonneg hour.1)
  · exact (congrArg (· - 1) month).trans (by omega)
  · exact (congrArg (· + s.baseYear - 1900) year).trans (by omega)
  · exact (congrArg (· - 1) week).trans (by omega)

/-! ## Dates from their numbers -/

/-- The days before a month that is counted from January 1900. -/
def monthStart (k : Int) : Int := daysBefore (k % 12) (k / 12)

theorem monthStart_succ (k : Int) :
    monthStart (k + 1) = monthStart k + getDaysInMonth (k % 12) (k / 12 + 1900) := by
  rw [monthStart, monthStart, ← daysBefore_next (by omega)]
  split
  · rw [show (k + 1) % 12 = 0 by omega, show (k + 1) / 12 = k / 12 + 1 by omega]
  · rw [show (k + 1) % 12 = k % 12 + 1 by omega, show (k + 1) / 12 = k / 12 by omega]

theorem monthStart_mono : Monotone monthStart := by
  refine monotone_int_of_le_succ fun k => ?_
  have length := @getDaysInMonth_bounds (k % 12) (k / 12 + 1900) (by omega)
  rw [monthStart_succ]
  omega

/-- The day numbers of a month lie before those of the later months. -/
theorem dayNumber_lt {tm' : Tm} (dated : tm.Dated) (dated' : tm'.Dated)
    (earlier : 12 * tm.year + tm.mon < 12 * tm'.year + tm'.mon) :
    dayNumber tm < dayNumber tm' := by
  have ⟨_, _, _, mday, mon, _⟩ := dated
  have ⟨_, _, _, mday', mon', _⟩ := dated'
  have split (year : Int) {mon : Int} (inside : 0 ≤ mon ∧ mon < 12) :
      (12 * year + mon) % 12 = mon ∧ (12 * year + mon) / 12 = year := by omega
  have later := monthStart_mono (Int.add_one_le_iff.mpr earlier)
  rw [monthStart_succ, monthStart, monthStart, (split _ mon).1, (split _ mon).2, (split _ mon').1,
    (split _ mon').2] at later
  unfold dayNumber
  omega

theorem instant_inj {tm' : Tm} (dated : tm.Dated) (dated' : tm'.Dated)
    (same : instant tm = instant tm') : tm = tm' := by
  have ⟨sec, min, hour, _, mon, wday⟩ := dated
  have ⟨sec', min', hour', _, mon', wday'⟩ := dated'
  unfold instant secondOfDay at same
  have day : dayNumber tm = dayNumber tm' := by omega
  have month : 12 * tm.year + tm.mon = 12 * tm'.year + tm'.mon := by
    rcases lt_trichotomy (12 * tm.year + tm.mon) (12 * tm'.year + tm'.mon) with lt | eq | gt
    · exact absurd day (dayNumber_lt dated dated' lt).ne
    · exact eq
    · exact absurd day (dayNumber_lt dated' dated gt).ne'
  have same_month : tm.mon = tm'.mon ∧ tm.year = tm'.year := by omega
  refine Tm.ext (by omega) (by omega) (by omega) ?_ same_month.1 same_month.2 ?_
  · rw [dayNumber, dayNumber, same_month.1, same_month.2] at day
    omega
  · rw [wday, wday', day]

/-- `s->cmos_data[reg] |= bits`. -/
def RTCState.set (s : RTCState) (reg : Reg) (bits : BitVec 8) : RTCState :=
  { s with cmosData := Function.update s.cmosData reg (s.cmosData reg ||| bits) }

def RTCState.raise (s : RTCState) : RTCState := { s with irqs := s.irqs + 1 }

/-- Both top bits of an alarm register are set, which matches every value. -/
abbrev RTCState.Any (s : RTCState) (alarm : Reg) : Prop := s.cmosData alarm &&& 0xc0 = 0xc0

/-- The comparison of an alarm register with its part of the time. -/
abbrev RTCState.Reaches (s : RTCState) (alarm : Reg) (value : Int) : Prop :=
  s.Any alarm ∨ (rtcFromBcd s.dm (s.cmosData alarm) : Int) = value

def checkAlarm (s : RTCState) : RTCState :=
  if s.Reaches .secondsAlarm s.currentTm.sec ∧ s.Reaches .minutesAlarm s.currentTm.min ∧
      s.Reaches .hoursAlarm s.currentTm.hour then
    (s.set .c 0xa0).raise
  else s

/-- `rtc_update_second2` without its timer. -/
def rtcUpdateSecond2 (s : RTCState) : RTCState :=
  let s := if s.has .b 7 then s else rtcCopyDate s
  let s := if s.has .b 5 then checkAlarm s else s
  let s := s.set .c 0x10
  let s := if s.has .b 4 then (s.set .c 0x80).raise else s
  { s with cmosData := Function.update s.cmosData .a (s.cmosData .a &&& 0x7f) }

/-- The alarm flag is set and the interrupt raised, apart from the one that the end of the update
raises. -/
def Fires (s : RTCState) : Prop :=
  (rtcUpdateSecond2 s).has .c 5 ∧
    (rtcUpdateSecond2 s).irqs = s.irqs + 1 + if s.has .b 4 then 1 else 0

/-- The alarm register matches every value or is equal to the time register. -/
def RTCState.Matches (s : RTCState) (alarm reg : Reg) : Prop :=
  s.Any alarm ∨ s.cmosData alarm = (rtcCopyDate s).cmosData reg

def Due (s : RTCState) : Prop :=
  s.Matches .secondsAlarm .seconds ∧ s.Matches .minutesAlarm .minutes ∧
    s.Matches .hoursAlarm .hours

/-- The alarm register matches every value or holds a number of the current format. -/
def RTCState.Written (s : RTCState) (alarm : Reg) (format : Nat → BitVec 8) (bound : Nat) : Prop :=
  s.Any alarm ∨ ∃ a < bound, s.cmosData alarm = format a

structure AlarmWritten (s : RTCState) : Prop where
  seconds : s.Written .secondsAlarm (rtcToBcd s.dm) 60
  minutes : s.Written .minutesAlarm (rtcToBcd s.dm) 60
  hours : s.Written .hoursAlarm (hoursTo s.dm s.h24) 24

/-- The hour is after noon, in the format of 12 hours, and the alarm names an hour. -/
def AfterNoon (s : RTCState) : Prop :=
  s.h24 = false ∧ 12 ≤ s.currentTm.hour ∧ ¬s.Any .hoursAlarm

theorem fires_iff (clear : s.has .b 7 = false) (enabled : s.has .b 5 = true) :
    Fires s ↔ s.Reaches .secondsAlarm s.currentTm.sec ∧ s.Reaches .minutesAlarm s.currentTm.min ∧
      s.Reaches .hoursAlarm s.currentTm.hour := by
  have shown (bit : Nat) : (rtcCopyDate s).has .b bit = s.has .b bit := rfl
  have kept (t : RTCState) (bits : BitVec 8) (bit : Nat) :
      (t.set .c bits).has .b bit = t.has .b bit := rfl
  have raised (t : RTCState) (bit : Nat) : t.raise.has .b bit = t.has .b bit := rfl
  rw [Fires, rtcUpdateSecond2]
  simp only [clear, Bool.false_eq_true, if_false, shown, enabled, if_true, checkAlarm]
  split
  · next alarm =>
    refine iff_of_true ?_ alarm
    simp only [kept, raised, shown]
    cases s.has .b 4 <;> simp [RTCState.has, RTCState.set, RTCState.raise, rtcCopyDate]
  · next quiet =>
    refine iff_of_false (fun fired => ?_) quiet
    have count := fired.2
    simp only [kept, shown] at count
    cases uie : s.has .b 4 <;> simp [uie, RTCState.set, RTCState.raise, rtcCopyDate] at count

/-- Seconds and minutes are reached when their registers are equal to the time registers. -/
theorem reaches_iff {alarm : Reg} (reg : Reg) {value : Int} (range : 0 ≤ value ∧ value < 60)
    (stored : (rtcCopyDate s).cmosData reg = rtcToBcd s.dm value.toNat)
    (written : s.Written alarm (rtcToBcd s.dm) 60) :
    s.Reaches alarm value ↔ s.Matches alarm reg := by
  rw [RTCState.Matches, stored]
  refine or_congr_right' fun cares => ?_
  obtain ⟨a, small, encoded⟩ := written.resolve_left cares
  have back := rtcFromBcd_rtcToBcd s.dm
  rw [encoded, back a (by omega)]
  constructor
  · rintro rfl
    rfl
  · intro same
    rw [← back a (by omega), same, back _ (by omega)]
    omega

/-- The hours of the alarm, decoded as a whole: from noon on they are no hours of the day. -/
theorem rtcFromBcd_hoursTo : ∀ dm, ∀ h < 24, rtcFromBcd dm (hoursTo dm false h) =
    if h < 12 then h else if dm then h + 116 else h + 68 := by
  decide

theorem reaches_hours_iff (range : 0 ≤ s.currentTm.hour ∧ s.currentTm.hour < 24)
    (written : s.Written .hoursAlarm (hoursTo s.dm s.h24) 24) :
    s.Reaches .hoursAlarm s.currentTm.hour ↔ s.Matches .hoursAlarm .hours ∧ ¬AfterNoon s := by
  by_cases any : s.Any .hoursAlarm
  · exact iff_of_true (.inl any) ⟨.inl any, fun noon => noon.2.2 any⟩
  obtain ⟨h, small, encoded⟩ := written.resolve_left any
  have stored : (rtcCopyDate s).cmosData .hours = hoursTo s.dm s.h24 s.currentTm.hour.toNat := rfl
  have back := hoursFrom_hoursTo s.dm s.h24
  have same : hoursTo s.dm s.h24 h = hoursTo s.dm s.h24 s.currentTm.hour.toNat ↔
      h = s.currentTm.hour.toNat := by
    refine ⟨fun equal => ?_, fun equal => by rw [equal]⟩
    rw [← back h small, equal, back _ (by omega)]
  rw [RTCState.Reaches, RTCState.Matches, AfterNoon, or_iff_right any, or_iff_right any, encoded,
    stored, same]
  simp only [any, not_false_eq_true, and_true]
  cases s.h24 with
  | false =>
    rw [rtcFromBcd_hoursTo _ _ small]
    split_ifs <;> simp <;> omega
  | true =>
    rw [show hoursTo s.dm true h = rtcToBcd s.dm h from rfl, rtcFromBcd_rtcToBcd _ _ (by omega)]
    simp
    omega

/-- One o'clock in the afternoon, in BCD and twelve hours. -/
def alarmAt (hour : BitVec 8) : RTCState :=
  ⟨fun | .hoursAlarm => hour | .b => 0x20 | _ => 0, ⟨0, 0, 13, 1, 0, 100, 6⟩, 2000, 0⟩

end Qemu.Hw.Rtc
