import EGServer.Holidays.Easter
import Mathlib.Logic.Function.Basic

/-!
# Holiday rules

The rules of `game_event_holiday_rule`, how they are loaded, and the times that a rule gives for a
year. A loaded rule has passed the checks of `LoadHolidayRules`, so it carries what they promise.

Local time is UTC plus a constant: `zone` seconds. Years are not bounded. The lunar new year, which
the code computes with floating-point numbers, is a parameter.
-/

namespace EGServer.Holidays

open CivilCalendar

/-! ## The rules -/

inductive HolidayRuleType where
  | fixedDate
  | nthWeekday
  | firstWeekdayOfMonth
  | weekdayOnOrAfter
  | easterOffset
  | lunarNewYear
  | quarterMonthFirstWeekday
  | weeklyWeekday
  deriving DecidableEq, Repr

namespace HolidayRuleType

/-- The type below `Max` with a number. -/
def ofNat? : Nat → Option HolidayRuleType
  | 0 => some fixedDate
  | 1 => some nthWeekday
  | 2 => some firstWeekdayOfMonth
  | 3 => some weekdayOnOrAfter
  | 4 => some easterOffset
  | 5 => some lunarNewYear
  | 6 => some quarterMonthFirstWeekday
  | 7 => some weeklyWeekday
  | _ => none

def usesMonth (type : HolidayRuleType) : Bool :=
  type = fixedDate || type = nthWeekday || type = firstWeekdayOfMonth || type = weekdayOnOrAfter

def usesDay (type : HolidayRuleType) : Bool := type = fixedDate || type = weekdayOnOrAfter

end HolidayRuleType

/-- A rule. `dayOffset` is in days, and `timeOfDay` in minutes. -/
structure HolidayRule where
  holidayId : UInt32
  type : HolidayRuleType
  month : Nat
  day : Nat
  weekday : Nat
  dayOffset : Int
  timeOfDay : Nat
  occurrence : Nat
  month_range : 1 ≤ month ∧ month ≤ 12
  day_range : 1 ≤ day ∧ day ≤ 31
  weekday_lt : weekday < 7
  timeOfDay_lt : timeOfDay < 24 * 60
  nth_range : type = .nthWeekday → 1 ≤ occurrence ∧ occurrence ≤ 5
  quarter_range : type = .quarterMonthFirstWeekday → occurrence ≤ 2

def HolidayRule.isWeekly (rule : HolidayRule) : Bool := rule.type = .weeklyWeekday

/-! ## Loading -/

/-- A row of `game_event_holiday_rule`. -/
structure HolidayRuleRow where
  holiday : UInt32
  ruleType : UInt8
  month : UInt8
  day : UInt8
  weekday : UInt8
  dayOffset : Int16
  startHour : UInt8
  startMinute : UInt8
  occurrence : UInt8

/-- Why a row is skipped. -/
inductive HolidayRuleError where
  | nonexistingHoliday
  | invalidRuleType
  | outOfRangeDateField
  | noValidMonth
  | noValidDay
  | nthOccurrence
  | quarterOccurrence
  deriving DecidableEq

namespace HolidayRuleRow

variable {row : HolidayRuleRow} {type : HolidayRuleType}

theorem month_range (h : ¬(type.usesMonth ∧ (row.month.toNat < 1 ∨ 12 < row.month.toNat))) :
    1 ≤ (if type.usesMonth then row.month.toNat else 1) ∧
      (if type.usesMonth then row.month.toNat else 1) ≤ 12 := by
  split
  · next huses =>
    have hgood := not_and.mp h huses
    omega
  · decide

theorem day_range (hday : ¬31 < row.day.toNat) (h : ¬(type.usesDay ∧ row.day.toNat < 1)) :
    1 ≤ (if type.usesDay then row.day.toNat else 1) ∧
      (if type.usesDay then row.day.toNat else 1) ≤ 31 := by
  split
  · next huses =>
    have hgood := not_and.mp h huses
    omega
  · decide

theorem timeOfDay_lt (hhour : ¬23 < row.startHour.toNat) (hminute : ¬59 < row.startMinute.toNat) :
    row.startHour.toNat * 60 + row.startMinute.toNat < 24 * 60 := by
  omega

theorem nth_range
    (h : ¬(type = .nthWeekday ∧ (row.occurrence.toNat < 1 ∨ 5 < row.occurrence.toNat))) :
    type = .nthWeekday → 1 ≤ row.occurrence.toNat ∧ row.occurrence.toNat ≤ 5 := by
  intro htype
  have hgood := not_and.mp h htype
  omega

theorem quarter_range (h : ¬(type = .quarterMonthFirstWeekday ∧ 2 < row.occurrence.toNat)) :
    type = .quarterMonthFirstWeekday → row.occurrence.toNat ≤ 2 := by
  intro htype
  have hgood := not_and.mp h htype
  omega

end HolidayRuleRow

/-- A round of `LoadHolidayRules`: the checks, in order. -/
def readHolidayRule (lookupEntry : UInt32 → Bool) (row : HolidayRuleRow) :
    Except HolidayRuleError HolidayRule :=
  if !lookupEntry row.holiday then .error .nonexistingHoliday
  else
    match HolidayRuleType.ofNat? row.ruleType.toNat with
    | none => .error .invalidRuleType
    | some type =>
      if hday : 31 < row.day.toNat then .error .outOfRangeDateField
      else if hweekday : 6 < row.weekday.toNat then .error .outOfRangeDateField
      else if hhour : 23 < row.startHour.toNat then .error .outOfRangeDateField
      else if hminute : 59 < row.startMinute.toNat then .error .outOfRangeDateField
      else if hmonth : type.usesMonth ∧ (row.month.toNat < 1 ∨ 12 < row.month.toNat) then
        .error .noValidMonth
      else if huses : type.usesDay ∧ row.day.toNat < 1 then .error .noValidDay
      else if hnth : type = .nthWeekday ∧
          (row.occurrence.toNat < 1 ∨ 5 < row.occurrence.toNat) then .error .nthOccurrence
      else if hquarter : type = .quarterMonthFirstWeekday ∧ 2 < row.occurrence.toNat then
        .error .quarterOccurrence
      else .ok {
        holidayId := row.holiday
        type := type
        month := if type.usesMonth then row.month.toNat else 1
        day := if type.usesDay then row.day.toNat else 1
        weekday := row.weekday.toNat
        dayOffset := row.dayOffset.toInt
        timeOfDay := row.startHour.toNat * 60 + row.startMinute.toNat
        occurrence := row.occurrence.toNat
        month_range := HolidayRuleRow.month_range hmonth
        day_range := HolidayRuleRow.day_range hday huses
        weekday_lt := Nat.lt_succ_of_le (Nat.le_of_not_lt hweekday)
        timeOfDay_lt := HolidayRuleRow.timeOfDay_lt hhour hminute
        nth_range := HolidayRuleRow.nth_range hnth
        quarter_range := HolidayRuleRow.quarter_range hquarter }

/-- `_holidayRules`, by holiday. -/
abbrev HolidayRules := UInt32 → Option HolidayRule

/-- The loop of `LoadHolidayRules`; a later row of a holiday takes the place of an earlier one. -/
def LoadHolidayRules (lookupEntry : UInt32 → Bool) (rows : List HolidayRuleRow) : HolidayRules :=
  rows.foldl
    (fun rules row =>
      match readHolidayRule lookupEntry row with
      | .ok rule => Function.update rules rule.holidayId (some rule)
      | .error _ => rules) fun _ => none

/-! ## Local time -/

def SECONDS_PER_DAY : Int := 86400

/-- The fields of `tm` that are read. -/
structure Tm where
  year : Int
  mon : Int
  mday : Int
  hour : Int
  min : Int
  sec : Int
  wday : Nat

/-- The local date, as a day. -/
def localDay (zone t : Int) : Int := (t + zone) / SECONDS_PER_DAY

/-- The seconds since the local midnight. -/
def localTimeOfDay (zone t : Int) : Int := (t + zone) % SECONDS_PER_DAY

/-- `localtime_r` -/
def TimeBreakdown (zone t : Int) : Tm where
  year := (ofDays (localDay zone t)).year - 1900
  mon := (ofDays (localDay zone t)).month - 1
  mday := (ofDays (localDay zone t)).day
  hour := localTimeOfDay zone t / 3600
  min := localTimeOfDay zone t % 3600 / 60
  sec := localTimeOfDay zone t % 60
  wday := weekday (localDay zone t)

/-- `mktime`, which adds up the fields; the month is in its range. -/
def mktime (zone : Int) (fields : Tm) : Int :=
  (yearStart (fields.year + 1900) + monthStart (fields.year + 1900) (fields.mon + 1).toNat +
    fields.mday - 1) * SECONDS_PER_DAY + fields.hour * 3600 + fields.min * 60 + fields.sec - zone

/-- The weekday field is not read by `mktime`. -/
def ToLocalTimestamp (zone : Int) (date : Date) (timeOfDay : Int) : Int :=
  mktime zone {
    year := date.year - 1900
    mon := date.month - 1
    mday := date.day
    hour := timeOfDay.tdiv 3600
    min := (timeOfDay.tmod 3600).tdiv 60
    sec := timeOfDay.tmod 60
    wday := 0 }

def LocalDateOf (zone timestamp : Int) : Date where
  year := (TimeBreakdown zone timestamp).year + 1900
  month := ((TimeBreakdown zone timestamp).mon + 1).toNat
  day := (TimeBreakdown zone timestamp).mday.toNat

/-- The timestamp of a local date and time. -/
def timestampOf (zone day timeOfDay : Int) : Int := day * SECONDS_PER_DAY + timeOfDay - zone

theorem localDay_timestampOf {zone day timeOfDay : Int} (h : 0 ≤ timeOfDay)
    (h' : timeOfDay < SECONDS_PER_DAY) : localDay zone (timestampOf zone day timeOfDay) = day := by
  unfold localDay timestampOf SECONDS_PER_DAY at *
  omega

theorem localTimeOfDay_timestampOf {zone day timeOfDay : Int} (h : 0 ≤ timeOfDay)
    (h' : timeOfDay < SECONDS_PER_DAY) :
    localTimeOfDay zone (timestampOf zone day timeOfDay) = timeOfDay := by
  unfold localTimeOfDay timestampOf SECONDS_PER_DAY at *
  omega

theorem timestampOf_localDay (zone t : Int) :
    timestampOf zone (localDay zone t) (localTimeOfDay zone t) = t := by
  unfold timestampOf localDay localTimeOfDay SECONDS_PER_DAY
  omega

theorem localTimeOfDay_bounds (zone t : Int) :
    0 ≤ localTimeOfDay zone t ∧ localTimeOfDay zone t < SECONDS_PER_DAY := by
  unfold localTimeOfDay SECONDS_PER_DAY
  omega

theorem ToLocalTimestamp_eq {zone timeOfDay : Int} {date : Date} (h : 0 ≤ timeOfDay) :
    ToLocalTimestamp zone date timeOfDay = timestampOf zone date.toDays timeOfDay := by
  have hmonth : ((date.month : Int) - 1 + 1).toNat = date.month := by omega
  have hyear : date.year - 1900 + 1900 = date.year := by omega
  unfold ToLocalTimestamp mktime timestampOf Date.toDays
  grind

theorem LocalDateOf_eq (zone timestamp : Int) :
    LocalDateOf zone timestamp = ofDays (localDay zone timestamp) := by
  unfold LocalDateOf TimeBreakdown
  ext <;> dsimp only <;> omega

/-! ## The occurrences of a year -/

/-- `year_month_day{ }`, which is no date. -/
def noDate : Date := { year := 0, month := 0, day := 0 }

/-- The first day of a month. -/
def monthFirst (targetYear : Int) (targetMonth : Nat) : Int :=
  (Date.toDays { year := targetYear, month := targetMonth, day := 1 })

/-- A `year_month_weekday` exists if the day is in the month. -/
def NthWeekdayOfMonth (targetYear : Int) (targetMonth targetWeekday occurrence : Nat) : Date :=
  let first := monthFirst targetYear targetMonth
  let index := daysUntil first targetWeekday + 7 * (occurrence - 1)
  if 1 ≤ occurrence ∧ occurrence ≤ 5 ∧ index < monthLength targetYear targetMonth then
    ofDays (first + index)
  else noDate

/-- A date that does not exist counts on from the first of its month. -/
def WeekdayOnOrAfter (date : Date) (target : Nat) : Date :=
  ofDays (date.toDays + daysUntil date.toDays target)

/-- The dates of the lunar new year, from January 21 to February 20. -/
structure LunarNewYear where
  date : Int → Date
  valid : ∀ y, (date y).Valid
  year_eq : ∀ y, (date y).year = y
  range : ∀ y, (date y).month = 1 ∧ 21 ≤ (date y).day ∨ (date y).month = 2 ∧ (date y).day ≤ 20

def BaseDate (lunar : LunarNewYear) (rule : HolidayRule) (targetYear : Int) (targetMonth : Nat) :
    Date :=
  match rule.type with
  | .fixedDate => { year := targetYear, month := targetMonth, day := rule.day }
  | .nthWeekday => NthWeekdayOfMonth targetYear targetMonth rule.weekday rule.occurrence
  | .firstWeekdayOfMonth | .quarterMonthFirstWeekday =>
    NthWeekdayOfMonth targetYear targetMonth rule.weekday 1
  | .weekdayOnOrAfter =>
    WeekdayOnOrAfter { year := targetYear, month := targetMonth, day := rule.day } rule.weekday
  | .easterOffset => CalculateEasterSunday targetYear
  | .lunarNewYear => lunar.date targetYear
  | .weeklyWeekday => noDate

/-- The time that a base date stands for. -/
def resolve (zone : Int) (rule : HolidayRule) (base : Date) : Int :=
  ToLocalTimestamp zone (ofDays (base.toDays + rule.dayOffset)) (rule.timeOfDay * 60)

def GetYearOccurrences (zone : Int) (lunar : LunarNewYear) (rule : HolidayRule) (targetYear : Int) :
    List Int :=
  if rule.isWeekly then []
  else if rule.type = .quarterMonthFirstWeekday then
    (List.range' 1 12).filterMap fun monthIndex =>
      if monthIndex % 3 ≠ rule.occurrence then none
      else
        let quarterBase := BaseDate lunar rule targetYear monthIndex
        if quarterBase.Valid then some (resolve zone rule quarterBase) else none
  else
    let base := BaseDate lunar rule targetYear rule.month
    if base.Valid then [resolve zone rule base] else []

end EGServer.Holidays
