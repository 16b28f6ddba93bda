import EGServer.Holidays.WowTime

/-!
# Dates of the client

The time that a `WowTime` denotes, the order of the times, adding seconds to them, and `PackDate`.
Two digits of the year are kept, so the times are those of the years 2000 to 2099.
-/

namespace EGServer.Holidays

open CivilCalendar

/-! ## Unix times -/

/-- `timegm`, which carries the months over to the years. -/
def timegm (fields : Tm) : Int :=
  mktime 0 { fields with year := fields.year + fields.mon / 12, mon := fields.mon % 12 }

/-- `gmtime_r`, which fails if the year is no `int`. -/
def gmtime_r (unixTime : Int) : Option Tm :=
  let fields := TimeBreakdown 0 unixTime
  if -2 ^ 31 ≤ fields.year ∧ fields.year < 2 ^ 31 then some fields else none

namespace WowTime

def GetUnixTimeFromUtcTime (w : WowTime) : Int :=
  if w.year < 0 ∨ w.month < 0 ∨ w.monthDay < 0 then 0
  else timegm {
    year := w.year + 100
    mon := w.month
    mday := w.monthDay + 1
    hour := if 0 ≤ w.hour then w.hour else 0
    min := if 0 ≤ w.hour ∧ 0 ≤ w.minute then w.minute else 0
    sec := 0
    wday := w.weekDay.toNat }

def SetUtcTimeFromUnixTime (w : WowTime) (unixTime : Int) : WowTime :=
  match gmtime_r unixTime with
  | none => w
  | some buf =>
    { w with
      year := (buf.year - 100).tmod 100
      month := buf.mon
      monthDay := buf.mday - 1
      weekDay := buf.wday
      hour := buf.hour
      minute := buf.min }

/-- `operator+=` -/
def addSeconds (w : WowTime) (seconds : Int) : WowTime :=
  w.SetUtcTimeFromUnixTime (w.GetUnixTimeFromUtcTime + seconds)

def compareFieldIfSet (left right : Int) : Ordering :=
  if left < 0 ∨ right < 0 then .eq else compare left right

/-- `operator<=>` -/
def cmp (left right : WowTime) : Ordering :=
  (compareFieldIfSet left.year right.year).then <|
    (compareFieldIfSet left.month right.month).then <|
      (compareFieldIfSet left.monthDay right.monthDay).then <|
        (compareFieldIfSet left.weekDay right.weekDay).then <|
          (compareFieldIfSet left.hour right.hour).then <|
            compareFieldIfSet left.minute right.minute

/-! ## Real times -/

/-- The date of a time that is fully set. -/
def date (w : WowTime) : Date where
  year := w.year + 2000
  month := (w.month + 1).toNat
  day := (w.monthDay + 1).toNat

/-- A fully set time: a date that exists, its weekday, and a time of day. -/
structure Real (w : WowTime) : Prop where
  year : 0 ≤ w.year
  month : 0 ≤ w.month
  monthDay : 0 ≤ w.monthDay
  valid : w.date.Valid
  weekDay : w.weekDay = weekday w.date.toDays
  hour : 0 ≤ w.hour ∧ w.hour < 24
  minute : 0 ≤ w.minute ∧ w.minute < 60

/-- A real time that denotes the minute that a unix time is in. -/
def Denotes (w : WowTime) (unixTime : Int) : Prop :=
  w.Real ∧ w.GetUnixTimeFromUtcTime = unixTime / 60 * 60

variable {w w' : WowTime}

theorem Real.unixTime (h : w.Real) :
    w.GetUnixTimeFromUtcTime = w.date.toDays * 86400 + w.hour * 3600 + w.minute * 60 := by
  obtain ⟨hyear, hmonth, hmonthDay, ⟨-, hmonth12, -, -⟩, -, ⟨hhour, -⟩, ⟨hminute, -⟩⟩ := h
  have hlt : w.month < 12 := by
    simp only [date] at hmonth12
    omega
  have hcarry : w.month / 12 = 0 := by omega
  have hmod : w.month % 12 = w.month := by omega
  have hday : ((w.monthDay + 1).toNat : Int) = w.monthDay + 1 := by omega
  have hyears : w.year + 100 + 0 + 1900 = w.year + 2000 := by omega
  unfold GetUnixTimeFromUtcTime
  rw [if_neg (by omega), if_pos hhour, if_pos ⟨hhour, hminute⟩]
  unfold timegm mktime Date.toDays date SECONDS_PER_DAY
  dsimp only
  rw [hcarry, hmod, hday, hyears]
  omega

theorem Real.unixTime_bounds (h : w.Real) (hyear : w.year < 100) :
    946684800 ≤ w.GetUnixTimeFromUtcTime ∧ w.GetUnixTimeFromUtcTime < 4102444800 := by
  obtain ⟨hlow, hhigh⟩ := toDays_bounds h.valid
  have hfirst : yearStart 2000 ≤ yearStart w.date.year := by
    apply yearStart_mono
    have := h.year
    simp only [date]
    omega
  have hlast : yearStart (w.date.year + 1) ≤ yearStart 2100 := by
    apply yearStart_mono
    simp only [date]
    omega
  have hstart : yearStart 2000 = 10957 := by decide
  have hend : yearStart 2100 = 47482 := by decide
  have hhour := h.hour
  have hminute := h.minute
  rw [h.unixTime]
  omega

/-! ## The order -/

theorem compareFieldIfSet_of_nonneg {left right : Int} (hl : 0 ≤ left) (hr : 0 ≤ right) :
    compareFieldIfSet left right = compare left right := by
  unfold compareFieldIfSet
  rw [if_neg (by omega)]

theorem compareFieldIfSet_self (value : Int) : compareFieldIfSet value value = .eq := by
  unfold compareFieldIfSet
  split
  · rfl
  · exact compare_eq_iff_eq.mpr rfl

theorem cmp_of_before (h : w.Real) (h' : w'.Real) (hlt : w.date.Before w'.date) :
    w.cmp w' = .lt := by
  unfold cmp
  rw [compareFieldIfSet_of_nonneg h.year h'.year, compareFieldIfSet_of_nonneg h.month h'.month,
    compareFieldIfSet_of_nonneg h.monthDay h'.monthDay]
  have hmonth := h.month
  have hmonth' := h'.month
  have hmonthDay := h.monthDay
  have hmonthDay' := h'.monthDay
  simp only [Date.Before, date] at hlt
  rcases hlt with hyear | ⟨hyear, hlt | ⟨heq, hday⟩⟩
  · rw [compare_lt_iff_lt.mpr (show w.year < w'.year by omega)]
    rfl
  · rw [compare_eq_iff_eq.mpr (show w.year = w'.year by omega),
      compare_lt_iff_lt.mpr (show w.month < w'.month by omega)]
    rfl
  · rw [compare_eq_iff_eq.mpr (show w.year = w'.year by omega),
      compare_eq_iff_eq.mpr (show w.month = w'.month by omega),
      compare_lt_iff_lt.mpr (show w.monthDay < w'.monthDay by omega)]
    rfl

theorem compareFieldIfSet_swap (left right : Int) :
    (compareFieldIfSet left right).swap = compareFieldIfSet right left := by
  unfold compareFieldIfSet
  by_cases h : left < 0 ∨ right < 0
  · rw [if_pos h, if_pos (or_comm.mp h)]
    rfl
  · rw [if_neg h, if_neg (fun h' => h (or_comm.mp h'))]
    exact Std.OrientedOrd.eq_swap.symm

theorem cmp_swap (w w' : WowTime) : (w.cmp w').swap = w'.cmp w := by
  unfold cmp
  simp only [Ordering.swap_then, compareFieldIfSet_swap]

theorem cmp_of_date_eq (h : w.Real) (h' : w'.Real) (heq : w.date = w'.date) :
    w.cmp w' = (compare w.hour w'.hour).then (compare w.minute w'.minute) := by
  have hyear : w.year = w'.year := by
    have := congrArg Date.year heq
    simp only [date] at this
    omega
  have hmonth : w.month = w'.month := by
    have := congrArg Date.month heq
    have hge := h.month
    have hge' := h'.month
    simp only [date] at this
    omega
  have hmonthDay : w.monthDay = w'.monthDay := by
    have := congrArg Date.day heq
    have hge := h.monthDay
    have hge' := h'.monthDay
    simp only [date] at this
    omega
  have hweekDay : w.weekDay = w'.weekDay := by rw [h.weekDay, h'.weekDay, heq]
  unfold cmp
  rw [hyear, hmonth, hmonthDay, hweekDay, compareFieldIfSet_self, compareFieldIfSet_self,
    compareFieldIfSet_self, compareFieldIfSet_self, compareFieldIfSet_of_nonneg h.hour.1 h'.hour.1,
    compareFieldIfSet_of_nonneg h.minute.1 h'.minute.1]
  rfl

/-- **The order of the times is the order of their minutes.** -/
theorem cmp_eq (h : w.Real) (h' : w'.Real) :
    w.cmp w' = compare (w.GetUnixTimeFromUtcTime / 60) (w'.GetUnixTimeFromUtcTime / 60) := by
  have hhour := h.hour
  have hminute := h.minute
  have hhour' := h'.hour
  have hminute' := h'.minute
  rw [h.unixTime, h'.unixTime]
  rcases lt_trichotomy w.date.toDays w'.date.toDays with hlt | heq | hgt
  · rw [cmp_of_before h h' ((toDays_lt_iff h.valid h'.valid).mp hlt), eq_comm, compare_lt_iff_lt]
    omega
  · rw [cmp_of_date_eq h h' (toDays_injective h.valid h'.valid heq), heq]
    rcases lt_trichotomy w.hour w'.hour with hlt | hh | hgt
    · rw [compare_lt_iff_lt.mpr hlt, eq_comm]
      exact compare_lt_iff_lt.mpr (by omega)
    · rw [compare_eq_iff_eq.mpr hh]
      show compare w.minute w'.minute = _
      rcases lt_trichotomy w.minute w'.minute with hlt | hm | hgt
      · rw [compare_lt_iff_lt.mpr hlt, eq_comm, compare_lt_iff_lt]
        omega
      · rw [compare_eq_iff_eq.mpr hm, eq_comm, compare_eq_iff_eq]
        omega
      · rw [compare_gt_iff_gt.mpr hgt, eq_comm, compare_gt_iff_gt]
        omega
    · rw [compare_gt_iff_gt.mpr hgt, eq_comm]
      exact compare_gt_iff_gt.mpr (by omega)
  · rw [← cmp_swap, cmp_of_before h' h ((toDays_lt_iff h'.valid h.valid).mp hgt), eq_comm]
    exact compare_gt_iff_gt.mpr (by omega)

/-! ## Adding seconds -/

/-- The time at a date and a time of day. -/
def atDate (w : WowTime) (d : Date) (timeOfDay : Int) : WowTime :=
  { w with
    year := d.year - 2000
    month := d.month - 1
    monthDay := d.day - 1
    weekDay := weekday d.toDays
    hour := timeOfDay / 3600
    minute := timeOfDay % 3600 / 60 }

section AtDate

variable {d : Date} {timeOfDay : Int}

theorem atDate_date (hd : d.Valid) : (w.atDate d timeOfDay).date = d := by
  obtain ⟨hmonth, -, hday, -⟩ := hd
  ext
  · show d.year - 2000 + 2000 = d.year
    omega
  · show ((d.month : Int) - 1 + 1).toNat = d.month
    omega
  · show ((d.day : Int) - 1 + 1).toNat = d.day
    omega

theorem atDate_real (hd : d.Valid) (hyear : 2000 ≤ d.year) (h : 0 ≤ timeOfDay)
    (h' : timeOfDay < 86400) : (w.atDate d timeOfDay).Real where
  year := by
    show 0 ≤ d.year - 2000
    omega
  month := by
    have := hd.1
    show 0 ≤ (d.month : Int) - 1
    omega
  monthDay := by
    have := hd.2.2.1
    show 0 ≤ (d.day : Int) - 1
    omega
  valid := by rwa [atDate_date hd]
  weekDay := by
    rw [atDate_date hd]
    rfl
  hour := by
    show 0 ≤ timeOfDay / 3600 ∧ timeOfDay / 3600 < 24
    omega
  minute := by
    show 0 ≤ timeOfDay % 3600 / 60 ∧ timeOfDay % 3600 / 60 < 60
    omega

end AtDate

theorem year_bounds {n : Int} (h : 10957 ≤ n) (h' : n < 47482) :
    2000 ≤ (ofDays n).year ∧ (ofDays n).year < 2100 := by
  obtain ⟨hlow, hhigh⟩ := yearOf_spec n
  have hstart : yearStart 2000 = 10957 := by decide
  have hend : yearStart 2100 = 47482 := by decide
  show 2000 ≤ yearOf n ∧ yearOf n < 2100
  constructor
  · by_contra hlt
    have := @yearStart_mono (yearOf n + 1) 2000 (by omega)
    omega
  · by_contra hge
    have := @yearStart_mono 2100 (yearOf n) (by omega)
    omega

theorem SetUtcTimeFromUnixTime_eq {unixTime : Int} (h : 946684800 ≤ unixTime)
    (h' : unixTime < 4102444800) : w.SetUtcTimeFromUnixTime unixTime =
      w.atDate (ofDays (unixTime / 86400)) (unixTime % 86400) := by
  obtain ⟨hfrom, hto⟩ := @year_bounds (unixTime / 86400) (by omega) (by omega)
  have hday : localDay 0 unixTime = unixTime / 86400 := by
    unfold localDay SECONDS_PER_DAY
    omega
  have htime : localTimeOfDay 0 unixTime = unixTime % 86400 := by
    unfold localTimeOfDay SECONDS_PER_DAY
    omega
  have hfields : gmtime_r unixTime = some (TimeBreakdown 0 unixTime) := by
    unfold gmtime_r
    apply if_pos
    unfold TimeBreakdown
    rw [hday]
    dsimp only
    omega
  have hdigits : ((ofDays (unixTime / 86400)).year - 1900 - 100).tmod 100 =
      (ofDays (unixTime / 86400)).year - 2000 := by
    rw [Int.tmod_eq_emod_of_nonneg (by omega)]
    omega
  unfold SetUtcTimeFromUnixTime
  rw [hfields]
  unfold TimeBreakdown atDate
  dsimp only
  rw [hday, htime, hdigits, toDays_ofDays]

theorem SetUtcTimeFromUnixTime_denotes {unixTime : Int} (h : 946684800 ≤ unixTime)
    (h' : unixTime < 4102444800) : (w.SetUtcTimeFromUnixTime unixTime).Denotes unixTime := by
  have hvalid := ofDays_valid (unixTime / 86400)
  have hyear := (@year_bounds (unixTime / 86400) (by omega) (by omega)).1
  have hreal := @atDate_real w _ (unixTime % 86400) hvalid hyear (by omega) (by omega)
  rw [SetUtcTimeFromUnixTime_eq h h']
  refine ⟨hreal, ?_⟩
  rw [hreal.unixTime, atDate_date hvalid, toDays_ofDays]
  unfold atDate
  dsimp only
  omega

theorem SetUtcTimeFromUnixTime_year_lt (hw : w.year < 100) (unixTime : Int) :
    (w.SetUtcTimeFromUnixTime unixTime).year < 100 := by
  unfold SetUtcTimeFromUnixTime
  split
  · exact hw
  · next buf _ => exact Int.tmod_lt_of_pos (buf.year - 100) (by decide)

/-- **A sum denotes its minute** where it stays in the years of two digits. -/
theorem addSeconds_denotes_iff (hw : w.year < 100) (seconds : Int) :
    (w.addSeconds seconds).Denotes (w.GetUnixTimeFromUtcTime + seconds) ↔
      946684800 ≤ w.GetUnixTimeFromUtcTime + seconds ∧
        w.GetUnixTimeFromUtcTime + seconds < 4102444800 := by
  constructor
  · rintro ⟨hreal, heq⟩
    have hbounds := hreal.unixTime_bounds (SetUtcTimeFromUnixTime_year_lt hw _)
    omega
  · rintro ⟨hlow, hhigh⟩
    exact SetUtcTimeFromUnixTime_denotes hlow hhigh

end WowTime

/-! ## Packing a date -/

def HolidayPackedDateMaxYear : Int := 2031

/-- The value of a `std::chrono::year`, which is a `short`. -/
def chronoYear (y : Int) : Int := y.bmod (2 ^ 16)

/-- The inner `none` is `{ }`; the outer one is an `ASSERT` that fails. -/
def PackDate (zone localTime : Int) : Option (Option Nat) :=
  let loc := TimeBreakdown zone localTime
  let packedYear := chronoYear (loc.year + 1900)
  if packedYear < 2000 ∨ HolidayPackedDateMaxYear < packedYear then some none
  else do
    let packed : WowTime := {}
    let packed ← packed.SetYear (packedYear - 2000)
    let packed ← packed.SetMonth loc.mon
    let packed ← packed.SetMonthDay (loc.mday - 1)
    let packed ← packed.SetWeekDay loc.wday
    let packed ← packed.SetHour loc.hour
    let packed ← packed.SetMinute loc.min
    let packed ← packed.SetFlags 0
    return some packed.GetPackedTime

/-- The decoded time is that of the local fields, and nothing is unset. -/
def WowTime.Reads (w : WowTime) (fields : Tm) : Prop :=
  w.year = fields.year + 1900 - 2000 ∧ w.month = fields.mon ∧ w.monthDay = fields.mday - 1 ∧
    w.weekDay = fields.wday ∧ w.hour = fields.hour ∧ w.minute = fields.min ∧
      0 ≤ w.year ∧ 0 ≤ w.month ∧ 0 ≤ w.monthDay ∧ 0 ≤ w.weekDay ∧ 0 ≤ w.hour ∧ 0 ≤ w.minute ∧
        0 ≤ w.flags

/-- The time that `PackDate` packs. -/
def packedDate (zone t : Int) : WowTime where
  year := chronoYear ((TimeBreakdown zone t).year + 1900) - 2000
  month := (TimeBreakdown zone t).mon
  monthDay := (TimeBreakdown zone t).mday - 1
  weekDay := (TimeBreakdown zone t).wday
  hour := (TimeBreakdown zone t).hour
  minute := (TimeBreakdown zone t).min
  flags := 0

/-- The fields of a broken-down time, but for the year, are in their ranges. -/
structure Tm.InRange (fields : Tm) : Prop where
  mon : 0 ≤ fields.mon ∧ fields.mon < 12
  mday : 0 ≤ fields.mday - 1 ∧ fields.mday - 1 < 31
  wday : fields.wday < 7
  hour : 0 ≤ fields.hour ∧ fields.hour < 24
  min : 0 ≤ fields.min ∧ fields.min < 60

theorem monthLength_le (y : Int) {m : Nat} (h1 : 1 ≤ m) (h12 : m ≤ 12) : monthLength y m ≤ 31 := by
  unfold monthLength monthLengths
  interval_cases m <;> split <;> decide

theorem TimeBreakdown_inRange (zone t : Int) : (TimeBreakdown zone t).InRange := by
  obtain ⟨hmonth, hmonth12, hday, hlen⟩ := ofDays_valid (localDay zone t)
  have hle := monthLength_le (ofDays (localDay zone t)).year hmonth hmonth12
  have htime := localTimeOfDay_bounds zone t
  unfold SECONDS_PER_DAY at htime
  constructor
  · unfold TimeBreakdown
    dsimp only
    omega
  · unfold TimeBreakdown
    dsimp only
    omega
  · exact weekday_lt _
  · unfold TimeBreakdown
    dsimp only
    omega
  · unfold TimeBreakdown
    dsimp only
    omega

section PackDate

variable {zone t : Int}

theorem packedDate_inRange (hfrom : 2000 ≤ chronoYear ((TimeBreakdown zone t).year + 1900))
    (hto : chronoYear ((TimeBreakdown zone t).year + 1900) ≤ 2031) :
    (packedDate zone t).InRange := by
  have h := TimeBreakdown_inRange zone t
  have hwday : ((TimeBreakdown zone t).wday : Int) < 7 := by exact_mod_cast h.wday
  refine ⟨.inr ⟨?_, ?_⟩, .inr h.mon, .inr ⟨h.mday.1, ?_⟩, .inr ⟨Int.natCast_nonneg _, hwday⟩,
    .inr h.hour, .inr h.min, .inr ⟨Int.le_refl 0, show (0 : Int) < 3 by decide⟩⟩
  · unfold packedDate
    dsimp only
    omega
  · unfold packedDate
    dsimp only
    omega
  · exact h.mday.2.trans (by decide)

/-- No `ASSERT` fails: `PackDate` packs the years that fit and gives nothing for the others. -/
theorem PackDate_eq (zone t : Int) : PackDate zone t =
    some (if chronoYear ((TimeBreakdown zone t).year + 1900) < 2000 ∨
        2031 < chronoYear ((TimeBreakdown zone t).year + 1900) then none
      else some (packedDate zone t).GetPackedTime) := by
  unfold PackDate HolidayPackedDateMaxYear
  dsimp only
  split
  · rfl
  · next h =>
    have hrange := @packedDate_inRange zone t (by omega) (by omega)
    have hyear : WowTime.Admits 32 (chronoYear ((TimeBreakdown zone t).year + 1900) - 2000) :=
      hrange.year
    have hmonth : WowTime.Admits 12 (TimeBreakdown zone t).mon := hrange.month
    have hmonthDay : WowTime.Admits 32 ((TimeBreakdown zone t).mday - 1) := hrange.monthDay
    have hweekDay : WowTime.Admits 7 (TimeBreakdown zone t).wday := hrange.weekDay
    have hhour : WowTime.Admits 24 (TimeBreakdown zone t).hour := hrange.hour
    have hminute : WowTime.Admits 60 (TimeBreakdown zone t).min := hrange.minute
    have hflags : WowTime.Admits 3 0 := .inr ⟨Int.le_refl 0, by decide⟩
    unfold WowTime.SetYear WowTime.SetMonth WowTime.SetMonthDay WowTime.SetWeekDay WowTime.SetHour
      WowTime.SetMinute WowTime.SetFlags
    simp only [if_pos hyear, if_pos hmonth, if_pos hmonthDay, if_pos hweekDay, if_pos hhour,
      if_pos hminute, if_pos hflags, Option.bind_eq_bind, Option.bind_some, Option.pure_def,
      packedDate]

/-- **A packed date reads back** as the local time, for the years 2000 to 2030. -/
theorem reads_iff {p : Nat} (h : PackDate zone t = some (some p)) :
    (WowTime.SetPackedTime p).Reads (TimeBreakdown zone t) ↔
      2000 ≤ (TimeBreakdown zone t).year + 1900 ∧ (TimeBreakdown zone t).year + 1900 ≤ 2030 := by
  rw [PackDate_eq, Option.some.injEq] at h
  split at h
  · exact absurd h (by simp)
  · next hrange =>
    cases h
    have hin := @packedDate_inRange zone t (by omega) (by omega)
    have hfields := TimeBreakdown_inRange zone t
    rw [WowTime.SetPackedTime_GetPackedTime hin]
    unfold WowTime.Reads packedDate
    dsimp only
    generalize hyear : (TimeBreakdown zone t).year + 1900 = y at hrange ⊢
    have hchrono : 2000 ≤ y → y ≤ 2030 → chronoYear y = y := by
      intro hlow hhigh
      unfold chronoYear
      exact Int.bmod_eq_of_le (by omega) (by omega)
    constructor
    · grind
    · rintro ⟨hlow, hhigh⟩
      rw [hchrono hlow hhigh, if_neg (by omega)]
      have hwday : (0 : Int) ≤ (TimeBreakdown zone t).wday := Int.natCast_nonneg _
      exact ⟨rfl, rfl, rfl, rfl, rfl, rfl, by omega, hfields.mon.1, hfields.mday.1, hwday,
        hfields.hour.1, hfields.min.1, Int.le_refl 0⟩

end PackDate

/-! ## The packed dates -/

/-- **Packed dates round-trip**, but for the year 31. A decoded date is the local time for the
local years 2000 to 2030. Real times are ordered as their minutes, and a sum denotes its minute
within the years of two digits. -/
theorem wowTime_spec (zone : Int) :
    (∀ w : WowTime, w.Built → (WowTime.SetPackedTime w.GetPackedTime = w ↔ w.year ≠ 31)) ∧
      (∀ t p, PackDate zone t = some (some p) →
        ((WowTime.SetPackedTime p).Reads (TimeBreakdown zone t) ↔
          2000 ≤ (TimeBreakdown zone t).year + 1900 ∧
            (TimeBreakdown zone t).year + 1900 ≤ 2030)) ∧
      (∀ w w' : WowTime, w.Real → w'.Real → w.year ≤ 30 → w'.year ≤ 30 →
        w.cmp w' = compare (w.GetUnixTimeFromUtcTime / 60) (w'.GetUnixTimeFromUtcTime / 60)) ∧
      (∀ (w : WowTime) (s : Int), w.Real → w.year ≤ 30 →
        ((w.addSeconds s).Denotes (w.GetUnixTimeFromUtcTime + s) ↔
          946684800 ≤ w.GetUnixTimeFromUtcTime + s ∧
            w.GetUnixTimeFromUtcTime + s < 4102444800)) := by
  refine ⟨?_, ?_, ?_, ?_⟩
  · intro w hw
    exact WowTime.roundTrip_iff hw.inRange
  · intro t p h
    exact reads_iff h
  · intro w w' hw hw' _ _
    exact WowTime.cmp_eq hw hw'
  · intro w s _ hyear
    exact WowTime.addSeconds_denotes_iff (hyear.trans_lt (by decide)) s

/-- An unset time, and the last minute of 2030, which is followed by the year 31. -/
theorem wowTime_spec_2030 :
    WowTime.SetPackedTime (WowTime.GetPackedTime {}) = {} ∧
      (WowTime.addSeconds ⟨30, 11, 30, 2, 23, 59, 0⟩ 60).Denotes 1924992000 := by
  have hreal : WowTime.Real ⟨30, 11, 30, 2, 23, 59, 0⟩ :=
    ⟨by decide, by decide, by decide, by decide, by decide, by decide, by decide⟩
  have hsum := (wowTime_spec 0).2.2.2 ⟨30, 11, 30, 2, 23, 59, 0⟩ 60 hreal (by decide)
  exact ⟨((wowTime_spec 0).1 {} .unset).mpr (by decide), hsum.mpr (by decide)⟩

/-- `SetYear` admits the year 31, and `PackDate` packs the first minute of 2031: both are read with
an unset year. -/
theorem wowTime_2031 :
    (∃ w : WowTime, w.Built ∧ w.year = 31 ∧ (WowTime.SetPackedTime w.GetPackedTime).year = -1) ∧
      ∃ p, PackDate 0 1924992000 = some (some p) ∧ (TimeBreakdown 0 1924992000).year = 131 ∧
        (WowTime.SetPackedTime p).year = -1 := by
  refine ⟨⟨{ year := 31 }, .set (.year 31) .unset rfl, rfl, by decide⟩, 520099840, ?_, ?_, ?_⟩
  · decide
  · decide
  · decide

end EGServer.Holidays
