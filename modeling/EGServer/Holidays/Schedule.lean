import EGServer.Holidays.Anchors

/-!
# The schedule of a holiday

`SetHolidayEventTimeFromRule` takes the first occurrence that is not over from last year on.
`Meets` says which days a rule means; `schedule_spec` that the occurrences are those days, and that
the search finds the earliest of all years.
-/

namespace EGServer.Holidays

open CivilCalendar

/-! ## The code -/

/-- The fields of `GameEventData` that are used; `length` is in minutes. -/
structure GameEventData where
  start : Int
  length : UInt32

/-- The years of the loop. -/
def searchYears (currentYear : Int) : List Int :=
  (List.range 4).map fun i : Nat => currentYear - 1 + (i : Int)

/-- Whether the event was set, and the event. -/
def SetHolidayEventTimeFromRule (zone : Int) (lunar : LunarNewYear) (curTime : Int)
    (event : GameEventData) (rule : HolidayRule) (stageOffset : Int) : Bool × GameEventData :=
  if rule.isWeekly then
    match GetWeeklyAnchor zone rule curTime with
    | none => (false, event)
    | some anchor => (true, { event with start := anchor + stageOffset })
  else
    let window := stageOffset + event.length.toNat * 60
    let currentYear := (TimeBreakdown zone curTime).year + 1900
    match ((searchYears currentYear).flatMap (GetYearOccurrences zone lunar rule)).find?
        fun occurrence => curTime < occurrence + window with
    | none => (false, event)
    | some occurrence => (true, { event with start := occurrence + stageOffset })

/-! ## What the rules mean -/

/-- The first day of a month, or after it, that has a weekday. -/
def IsFirstWeekday (y : Int) (month weekday' : Nat) (d : Int) : Prop :=
  IsLeast { n | monthFirst y month ≤ n ∧ weekday n = weekday' } d

/-- The base days of a rule in a year, before they are shifted by `dayOffset`. -/
def Meets (lunar : LunarNewYear) (rule : HolidayRule) (y d : Int) : Prop :=
  match rule.type with
  | .fixedDate =>
    Date.Valid { year := y, month := rule.month, day := rule.day } ∧
      d = Date.toDays { year := y, month := rule.month, day := rule.day }
  | .nthWeekday =>
    -- so many weeks after the first one, in the same month
    ∃ first, IsFirstWeekday y rule.month rule.weekday first ∧
      d = first + 7 * (rule.occurrence - 1) ∧
      d < monthFirst y rule.month + monthLength y rule.month
  | .firstWeekdayOfMonth => IsFirstWeekday y rule.month rule.weekday d
  | .weekdayOnOrAfter =>
    IsLeast { n | monthFirst y rule.month + (rule.day - 1) ≤ n ∧ weekday n = rule.weekday } d
  | .easterOffset => (CalculateEasterSunday y).Valid ∧ d = (CalculateEasterSunday y).toDays
  | .lunarNewYear => d = (lunar.date y).toDays
  | .quarterMonthFirstWeekday =>
    ∃ month, 1 ≤ month ∧ month ≤ 12 ∧ month % 3 = rule.occurrence ∧
      IsFirstWeekday y month rule.weekday d
  | .weeklyWeekday => False

theorem isFirstWeekday_iff {y d : Int} {month w : Nat} (hw : w < 7) :
    IsFirstWeekday y month w d ↔ d = monthFirst y month + daysUntil (monthFirst y month) w := by
  have hleast := isLeast_daysUntil (monthFirst y month) hw
  exact ⟨fun h => h.unique hleast, fun h => h ▸ hleast⟩

/-! ## Months -/

theorem monthFirst_eq (y : Int) (month : Nat) :
    monthFirst y month = yearStart y + monthStart y month := by
  unfold monthFirst Date.toDays
  dsimp only
  omega

theorem monthLength_range (y : Int) {m : Nat} (h1 : 1 ≤ m) (h12 : m ≤ 12) :
    28 ≤ monthLength y m ∧ monthLength y m ≤ 31 := by
  unfold monthLength monthLengths
  interval_cases m <;> (try split) <;> decide

/-! ## The occurrences are what the rule means -/

theorem noDate_not_valid : ¬noDate.Valid := by decide

section Occurrences

variable {zone : Int} {lunar : LunarNewYear} {rule : HolidayRule} {y d o : Int} {month : Nat}

/-- The time of an occurrence with a base day. -/
def occurrenceAt (zone : Int) (rule : HolidayRule) (d : Int) : Int :=
  timestampOf zone (d + rule.dayOffset) (rule.timeOfDay * 60)

theorem resolve_eq (base : Date) : resolve zone rule base = occurrenceAt zone rule base.toDays := by
  rw [resolve, ToLocalTimestamp_eq (by omega), toDays_ofDays]
  rfl

theorem nthWeekday_valid_iff {w occurrence : Nat} (hw : w < 7)
    (hocc : 1 ≤ occurrence ∧ occurrence ≤ 5) :
    ((NthWeekdayOfMonth y month w occurrence).Valid ∧
        d = (NthWeekdayOfMonth y month w occurrence).toDays) ↔
      ∃ first, IsFirstWeekday y month w first ∧ d = first + 7 * ((occurrence : Int) - 1) ∧
        d < monthFirst y month + monthLength y month := by
  unfold NthWeekdayOfMonth
  dsimp only
  generalize hindex : daysUntil (monthFirst y month) w + 7 * (occurrence - 1) = index
  constructor
  · rintro ⟨hvalid, hd⟩
    split at hvalid
    · next hin =>
      rw [if_pos hin, toDays_ofDays] at hd
      exact ⟨_, (isFirstWeekday_iff hw).mpr rfl, by omega, by omega⟩
    · exact absurd hvalid noDate_not_valid
  · rintro ⟨first, hfirst, hd, hlt⟩
    rw [isFirstWeekday_iff hw] at hfirst
    rw [if_pos ⟨hocc.1, hocc.2, by omega⟩, toDays_ofDays]
    exact ⟨ofDays_valid _, by omega⟩

theorem firstWeekday_valid_iff {w : Nat} (h1 : 1 ≤ month) (h12 : month ≤ 12) (hw : w < 7) :
    ((NthWeekdayOfMonth y month w 1).Valid ∧ d = (NthWeekdayOfMonth y month w 1).toDays) ↔
      IsFirstWeekday y month w d := by
  rw [nthWeekday_valid_iff hw (by decide)]
  have hlength := monthLength_range y h1 h12
  have huntil := daysUntil_lt (monthFirst y month) w
  constructor
  · rintro ⟨first, hfirst, hd, -⟩
    have heq : d = first := by omega
    rwa [heq]
  · intro hfirst
    refine ⟨d, hfirst, by omega, ?_⟩
    rw [isFirstWeekday_iff hw] at hfirst
    omega

theorem weekdayOnOrAfter_iff {w day : Nat} (hw : w < 7) :
    d = (WeekdayOnOrAfter { year := y, month, day } w).toDays ↔
      IsLeast { n | monthFirst y month + ((day : Int) - 1) ≤ n ∧ weekday n = w } d := by
  have hstart : Date.toDays { year := y, month, day } = monthFirst y month + ((day : Int) - 1) := by
    rw [monthFirst_eq]
    unfold Date.toDays
    dsimp only
    omega
  have hleast := isLeast_daysUntil (monthFirst y month + ((day : Int) - 1)) hw
  rw [WeekdayOnOrAfter, toDays_ofDays, hstart]
  exact ⟨fun h => h ▸ hleast, fun h => h.unique hleast⟩

/-- The months that a rule has its base dates in. -/
def ruleMonths (rule : HolidayRule) : List Nat :=
  if rule.isWeekly then []
  else if rule.type = .quarterMonthFirstWeekday then
    (List.range' 1 12).filter fun monthIndex => monthIndex % 3 = rule.occurrence
  else [rule.month]

/-- The base days of a year, in the order of the code. -/
def baseDays (lunar : LunarNewYear) (rule : HolidayRule) (y : Int) : List Int :=
  (ruleMonths rule).filterMap fun month =>
    if (BaseDate lunar rule y month).Valid then some (BaseDate lunar rule y month).toDays else none

theorem GetYearOccurrences_eq (zone : Int) (lunar : LunarNewYear) (rule : HolidayRule) (y : Int) :
    GetYearOccurrences zone lunar rule y = (baseDays lunar rule y).map (occurrenceAt zone rule) := by
  unfold GetYearOccurrences baseDays ruleMonths
  split
  · rfl
  · split
    · rw [List.map_filterMap, List.filterMap_filter]
      apply List.filterMap_congr
      intro monthIndex _
      by_cases hmonth : monthIndex % 3 = rule.occurrence
      · by_cases hvalid : (BaseDate lunar rule y monthIndex).Valid
        · simp [hmonth, hvalid, resolve_eq]
        · simp [hmonth, hvalid]
      · simp [hmonth]
    · by_cases hvalid : (BaseDate lunar rule y rule.month).Valid
      · simp [hvalid, resolve_eq]
      · simp [hvalid]

/-- **The occurrences are what the rule means.** -/
theorem mem_baseDays : d ∈ baseDays lunar rule y ↔ Meets lunar rule y d := by
  have hmonth := rule.month_range
  have hw := rule.weekday_lt
  have hmem : d ∈ baseDays lunar rule y ↔ ∃ month ∈ ruleMonths rule,
      (BaseDate lunar rule y month).Valid ∧ d = (BaseDate lunar rule y month).toDays := by
    unfold baseDays
    rw [List.mem_filterMap]
    refine exists_congr fun month => and_congr_right fun _ => ?_
    split
    · next hvalid => simp [hvalid, eq_comm]
    · next hvalid => simp [hvalid]
  rw [hmem]
  unfold ruleMonths Meets BaseDate HolidayRule.isWeekly
  cases htype : rule.type with
  | fixedDate => simp
  | nthWeekday =>
    simp only [decide_eq_true_eq, reduceCtorEq, if_false, List.mem_singleton, exists_eq_left]
    exact nthWeekday_valid_iff hw (rule.nth_range htype)
  | firstWeekdayOfMonth =>
    simp only [decide_eq_true_eq, reduceCtorEq, if_false, List.mem_singleton, exists_eq_left]
    exact firstWeekday_valid_iff hmonth.1 hmonth.2 hw
  | weekdayOnOrAfter =>
    simp only [decide_eq_true_eq, reduceCtorEq, if_false, List.mem_singleton, exists_eq_left]
    rw [← weekdayOnOrAfter_iff hw]
    exact and_iff_right (ofDays_valid _)
  | easterOffset => simp
  | lunarNewYear =>
    simp only [decide_eq_true_eq, reduceCtorEq, if_false, List.mem_singleton, exists_eq_left]
    exact and_iff_right (lunar.valid y)
  | quarterMonthFirstWeekday =>
    simp only [decide_eq_true_eq, reduceCtorEq, if_false, if_true, List.mem_filter,
      List.mem_range'_1]
    refine exists_congr fun month => ?_
    constructor
    · rintro ⟨⟨hrange, hocc⟩, hbase⟩
      exact ⟨by omega, by omega, hocc,
        (firstWeekday_valid_iff (by omega) (by omega) hw).mp hbase⟩
    · rintro ⟨h1, h12, hocc, hfirst⟩
      exact ⟨⟨by omega, hocc⟩, (firstWeekday_valid_iff h1 h12 hw).mpr hfirst⟩
  | weeklyWeekday => simp

/-! ## The order of the occurrences -/

theorem firstWeekday_range {w : Nat} (hw : w < 7) (h : IsFirstWeekday y month w d) :
    monthFirst y month ≤ d ∧ d < monthFirst y month + 7 := by
  rw [isFirstWeekday_iff hw] at h
  have huntil := daysUntil_lt (monthFirst y month) w
  omega

theorem month_in_year (y : Int) (h1 : 1 ≤ month) (h12 : month ≤ 12) :
    yearStart y ≤ monthFirst y month ∧
      monthFirst y month + monthLength y month ≤ yearStart (y + 1) := by
  have hle := monthStart_add_le y h1 h12
  rw [monthFirst_eq, yearStart_succ]
  omega

theorem meets_in_year (h : Meets lunar rule y d) (htype : rule.type ≠ .weekdayOnOrAfter) :
    yearStart y ≤ d ∧ d < yearStart (y + 1) := by
  have hmonth := rule.month_range
  have hw := rule.weekday_lt
  unfold Meets at h
  cases hrule : rule.type with
  | fixedDate =>
    simp only [hrule] at h
    rw [h.2]
    exact toDays_bounds h.1
  | nthWeekday =>
    simp only [hrule] at h
    obtain ⟨first, hfirst, hd, hlt⟩ := h
    have hin := month_in_year y hmonth.1 hmonth.2
    have hrange := firstWeekday_range hw hfirst
    have hocc := rule.nth_range hrule
    omega
  | firstWeekdayOfMonth =>
    simp only [hrule] at h
    have hin := month_in_year y hmonth.1 hmonth.2
    have hrange := firstWeekday_range hw h
    have hlength := monthLength_range y hmonth.1 hmonth.2
    omega
  | weekdayOnOrAfter => exact absurd hrule htype
  | easterOffset =>
    simp only [hrule] at h
    have hyear : (CalculateEasterSunday y).year = y := rfl
    have hbounds := toDays_bounds h.1
    rw [hyear] at hbounds
    rwa [h.2]
  | lunarNewYear =>
    simp only [hrule] at h
    have hbounds := toDays_bounds (lunar.valid y)
    rw [lunar.year_eq] at hbounds
    rwa [h]
  | quarterMonthFirstWeekday =>
    simp only [hrule] at h
    obtain ⟨m, h1, h12, -, hfirst⟩ := h
    have hin := month_in_year y h1 h12
    have hrange := firstWeekday_range hw hfirst
    have hlength := monthLength_range y h1 h12
    omega
  | weeklyWeekday =>
    simp only [hrule] at h

theorem meets_onOrAfter (h : Meets lunar rule y d) (htype : rule.type = .weekdayOnOrAfter) :
    monthFirst y rule.month + (rule.day - 1) ≤ d ∧
      d < monthFirst y rule.month + (rule.day - 1) + 7 := by
  unfold Meets at h
  simp only [htype] at h
  have hleast := isLeast_daysUntil (monthFirst y rule.month + (rule.day - 1)) rule.weekday_lt
  have huntil := daysUntil_lt (monthFirst y rule.month + (rule.day - 1)) rule.weekday
  rw [h.unique hleast]
  omega

theorem monthFirst_add_le {y' : Int} (h1 : 1 ≤ month) (h12 : month ≤ 12) (hlt : y < y') :
    monthFirst y month + 364 ≤ monthFirst y' month := by
  have hnext := yearStart_mono (Int.add_one_le_of_lt hlt)
  have hstart : monthStart y month ≤ monthStart y' month + 1 := by
    unfold monthStart monthLengths
    interval_cases month <;> split <;> split <;> decide
  rw [yearStart_succ] at hnext
  have hlength : 365 ≤ yearLength y := by
    unfold yearLength
    split <;> decide
  rw [monthFirst_eq, monthFirst_eq]
  omega

theorem meets_bounds (h : Meets lunar rule y d) :
    yearStart y ≤ d ∧ d ≤ yearStart (y + 1) + 5 := by
  by_cases htype : rule.type = .weekdayOnOrAfter
  · have hmonth := rule.month_range
    have hday := rule.day_range
    have hin := month_in_year y hmonth.1 hmonth.2
    have hrange := meets_onOrAfter h htype
    have hlast : monthFirst y rule.month ≤ monthFirst y 12 := by
      have hmono := monthStart_mono y hmonth.1 hmonth.2 (by decide)
      rw [monthFirst_eq, monthFirst_eq]
      omega
    have hdecember : _ ∧ monthFirst y 12 + monthLength y 12 ≤ yearStart (y + 1) :=
      month_in_year y (by decide) (by decide)
    have hlength : monthLength y 12 = 31 := rfl
    omega
  · have hin := meets_in_year h htype
    omega

theorem meets_lt {y' d' : Int} (h : Meets lunar rule y d) (h' : Meets lunar rule y' d')
    (hlt : y < y') : d < d' := by
  by_cases htype : rule.type = .weekdayOnOrAfter
  · have hmonth := rule.month_range
    have hrange := meets_onOrAfter h htype
    have hrange' := meets_onOrAfter h' htype
    have hlater := monthFirst_add_le hmonth.1 hmonth.2 hlt
    omega
  · have hin := meets_in_year h htype
    have hin' := meets_in_year h' htype
    have hnext := yearStart_mono (Int.add_one_le_of_lt hlt)
    omega

theorem baseDays_pairwise (lunar : LunarNewYear) (rule : HolidayRule) (y : Int) :
    (baseDays lunar rule y).Pairwise (· < ·) := by
  have hw := rule.weekday_lt
  unfold baseDays
  rw [List.pairwise_filterMap]
  unfold ruleMonths
  split
  · exact List.Pairwise.nil
  split
  · next htype =>
    -- the months of a quarter rule are in order, and so are their first weekdays
    have hmonths : (List.range' 1 12).Pairwise (· < ·) := List.pairwise_lt_range'
    apply ((List.Pairwise.and_mem.mp hmonths).imp ?_).filter
    rintro m m' ⟨hm, hm', hlt⟩ d hd d' hd'
    rw [List.mem_range'_1] at hm hm'
    have hbase : ∀ {n : Nat} {e : Int}, 1 ≤ n → n ≤ 12 →
        (if (BaseDate lunar rule y n).Valid then some (BaseDate lunar rule y n).toDays else none) =
          some e → IsFirstWeekday y n rule.weekday e := by
      intro n e h1 h12 he
      split at he
      · next hvalid =>
        cases he
        have hdate : BaseDate lunar rule y n = NthWeekdayOfMonth y n rule.weekday 1 := by
          unfold BaseDate
          simp only [htype]
        rw [hdate] at hvalid ⊢
        exact (firstWeekday_valid_iff h1 h12 hw).mp ⟨hvalid, rfl⟩
      · cases he
    have hrange := firstWeekday_range hw (hbase (by omega) (by omega) hd)
    have hrange' := firstWeekday_range hw (hbase (by omega) (by omega) hd')
    have hlength := monthLength_range y hm.1 (by omega)
    have hnext : monthStart y (m + 1) ≤ monthStart y m' :=
      monthStart_mono y (by omega) hlt (by omega)
    rw [monthStart_succ y (by omega) (by omega)] at hnext
    rw [monthFirst_eq] at hrange hrange'
    omega
  · exact List.pairwise_singleton _ _

theorem occurrenceAt_lt_iff {d' : Int} : occurrenceAt zone rule d < occurrenceAt zone rule d' ↔
    d < d' := by
  unfold occurrenceAt timestampOf SECONDS_PER_DAY
  omega

theorem mem_GetYearOccurrences : o ∈ GetYearOccurrences zone lunar rule y ↔
    ∃ d, Meets lunar rule y d ∧ o = occurrenceAt zone rule d := by
  rw [GetYearOccurrences_eq, List.mem_map]
  refine exists_congr fun d => ?_
  rw [mem_baseDays, eq_comm]

/-! ## The search -/

/-- The first element of a list in order that satisfies `p` is the least one. -/
theorem find?_isLeast {l : List Int} {p : Int → Bool} {a : Int} (hsorted : l.Pairwise (· < ·))
    (h : l.find? p = some a) : IsLeast { x | x ∈ l ∧ p x = true } a := by
  obtain ⟨hp, before, after, hl, hno⟩ := List.find?_eq_some_iff_append.mp h
  refine ⟨⟨List.mem_of_find?_eq_some h, hp⟩, ?_⟩
  rintro x ⟨hx, hpx⟩
  rw [hl] at hx hsorted
  rcases List.mem_append.mp hx with hx | hx
  · have hnot := hno x hx
    simp [hpx] at hnot
  · rcases List.mem_cons.mp hx with rfl | hx
    · exact Int.le_refl _
    · have hrest := (List.pairwise_append.mp hsorted).2.1
      exact Int.le_of_lt (List.rel_of_pairwise_cons hrest hx)

theorem mem_searchYears {currentYear : Int} :
    y ∈ searchYears currentYear ↔ currentYear - 1 ≤ y ∧ y ≤ currentYear + 2 := by
  unfold searchYears
  simp only [List.mem_map, List.mem_range]
  constructor
  · rintro ⟨i, hi, rfl⟩
    omega
  · intro hy
    exact ⟨(y - (currentYear - 1)).toNat, by omega, by omega⟩

theorem occurrences_lt {y' o' : Int} (h : o ∈ GetYearOccurrences zone lunar rule y)
    (h' : o' ∈ GetYearOccurrences zone lunar rule y') (hlt : y < y') : o < o' := by
  obtain ⟨d, hd, rfl⟩ := mem_GetYearOccurrences.mp h
  obtain ⟨d', hd', rfl⟩ := mem_GetYearOccurrences.mp h'
  exact occurrenceAt_lt_iff.mpr (meets_lt hd hd' hlt)

theorem visited_pairwise (zone : Int) (lunar : LunarNewYear) (rule : HolidayRule)
    (currentYear : Int) :
    ((searchYears currentYear).flatMap (GetYearOccurrences zone lunar rule)).Pairwise (· < ·) := by
  rw [List.pairwise_flatMap]
  constructor
  · intro y _
    rw [GetYearOccurrences_eq]
    exact (baseDays_pairwise lunar rule y).map _ fun _ _ => occurrenceAt_lt_iff.mpr
  · have hyears : (searchYears currentYear).Pairwise (· < ·) := by
      unfold searchYears
      apply List.pairwise_lt_range.map
      intro i j hij
      omega
    exact hyears.imp fun hlt o ho o' ho' => occurrences_lt ho ho' hlt

theorem currentYear_spec (zone t : Int) :
    yearStart ((TimeBreakdown zone t).year + 1900) ≤ localDay zone t ∧
      localDay zone t < yearStart ((TimeBreakdown zone t).year + 1900 + 1) := by
  have hyear : (TimeBreakdown zone t).year + 1900 = yearOf (localDay zone t) :=
    Int.sub_add_cancel _ _
  rw [hyear]
  exact yearOf_spec _

theorem occurrenceAt_day (zone : Int) (rule : HolidayRule) (d : Int) :
    (d + rule.dayOffset) * SECONDS_PER_DAY ≤ occurrenceAt zone rule d + zone ∧
      occurrenceAt zone rule d + zone < (d + rule.dayOffset + 1) * SECONDS_PER_DAY := by
  have hlt := timeOfDay_lt_day rule
  unfold occurrenceAt timestampOf
  rw [Int.add_mul (d + rule.dayOffset) 1]
  omega

/-- **One year of looking back is enough**: what began in an earlier year is over. -/
theorem over_of_lt {curTime window : Int} (hoffset : rule.dayOffset < 180)
    (hwindow : window < 180 * SECONDS_PER_DAY) (ho : o ∈ GetYearOccurrences zone lunar rule y)
    (hy : y < (TimeBreakdown zone curTime).year + 1900 - 1) : o + window ≤ curTime := by
  obtain ⟨d, hd, rfl⟩ := mem_GetYearOccurrences.mp ho
  have hyear := currentYear_spec zone curTime
  generalize (TimeBreakdown zone curTime).year + 1900 = cy at hy hyear
  have hbounds := meets_bounds hd
  have hmono := yearStart_mono (show y + 1 ≤ cy - 1 by omega)
  have hlast := yearStart_succ (cy - 1)
  have hlength : 365 ≤ yearLength (cy - 1) := by
    unfold yearLength
    split <;> decide
  rw [Int.sub_add_cancel] at hlast
  have hday := occurrenceAt_day zone rule d
  have hcur := timestampOf_localDay zone curTime
  have htime := localTimeOfDay_bounds zone curTime
  unfold timestampOf at hcur
  unfold SECONDS_PER_DAY at *
  omega

/-- **Two years of looking ahead are enough** for what lies less than a year ahead. -/
theorem visited_of_soon {curTime : Int} (hoffset : -180 < rule.dayOffset)
    (ho : o ∈ GetYearOccurrences zone lunar rule y)
    (hsoon : o < curTime + 366 * SECONDS_PER_DAY) :
    y ≤ (TimeBreakdown zone curTime).year + 1900 + 2 := by
  obtain ⟨d, hd, rfl⟩ := mem_GetYearOccurrences.mp ho
  have hyear := currentYear_spec zone curTime
  generalize (TimeBreakdown zone curTime).year + 1900 = cy at hyear ⊢
  have hbounds := meets_bounds hd
  by_contra hlate
  have hmono := yearStart_mono (show cy + 1 + 1 + 1 ≤ y by omega)
  have hnext := yearStart_succ (cy + 1)
  have hnext' := yearStart_succ (cy + 1 + 1)
  have hlength : ∀ n, 365 ≤ yearLength n := by
    intro n
    unfold yearLength
    split <;> decide
  have hlen := hlength (cy + 1)
  have hlen' := hlength (cy + 1 + 1)
  have hday := occurrenceAt_day zone rule d
  have hcur := timestampOf_localDay zone curTime
  have htime := localTimeOfDay_bounds zone curTime
  unfold timestampOf at hcur
  unfold SECONDS_PER_DAY at *
  omega

/-- The occurrences of any year that are not over. -/
def Pending (zone : Int) (lunar : LunarNewYear) (rule : HolidayRule) (curTime window : Int) :
    Set Int :=
  { o | (∃ y, o ∈ GetYearOccurrences zone lunar rule y) ∧ curTime < o + window }

theorem search_isLeast {curTime : Int} {event : GameEventData} {stageOffset : Int}
    (hweekly : rule.isWeekly = false) (hoffset : -180 < rule.dayOffset ∧ rule.dayOffset < 180)
    (hwindow : stageOffset + event.length.toNat * 60 < 180 * SECONDS_PER_DAY)
    (hsome : ∃ o ∈ Pending zone lunar rule curTime (stageOffset + event.length.toNat * 60),
      o < curTime + 366 * SECONDS_PER_DAY) :
    ∃ o, SetHolidayEventTimeFromRule zone lunar curTime event rule stageOffset =
        (true, { event with start := o + stageOffset }) ∧
      IsLeast (Pending zone lunar rule curTime (stageOffset + event.length.toNat * 60)) o := by
  unfold SetHolidayEventTimeFromRule
  rw [if_neg (by simp [hweekly])]
  dsimp only
  generalize stageOffset + event.length.toNat * 60 = window at hwindow hsome ⊢
  have hvisited : ∀ {o y}, o ∈ GetYearOccurrences zone lunar rule y → curTime < o + window →
      (TimeBreakdown zone curTime).year + 1900 - 1 ≤ y := by
    intro o y ho hpending
    by_contra hearly
    have hover := over_of_lt hoffset.2 hwindow ho (Int.lt_of_not_ge hearly)
    omega
  obtain ⟨o₀, ⟨⟨y₀, ho₀⟩, hpending₀⟩, hsoon⟩ := hsome
  have hy₀ := visited_of_soon hoffset.1 ho₀ hsoon
  cases hfind : ((searchYears ((TimeBreakdown zone curTime).year + 1900)).flatMap
      (GetYearOccurrences zone lunar rule)).find? fun o => curTime < o + window with
  | none =>
    rw [List.find?_eq_none] at hfind
    have hmem := List.mem_flatMap.mpr ⟨y₀, mem_searchYears.mpr ⟨hvisited ho₀ hpending₀, hy₀⟩, ho₀⟩
    exact absurd (decide_eq_true hpending₀) (hfind o₀ hmem)
  | some o =>
    obtain ⟨⟨hmem, hpending⟩, hleast⟩ := find?_isLeast (visited_pairwise _ _ _ _) hfind
    obtain ⟨y, hy, ho⟩ := List.mem_flatMap.mp hmem
    refine ⟨o, rfl, ⟨⟨y, ho⟩, of_decide_eq_true hpending⟩, ?_⟩
    rintro o' ⟨⟨y', ho'⟩, hpending'⟩
    by_cases hy' : y' ≤ (TimeBreakdown zone curTime).year + 1900 + 2
    · apply hleast
      exact ⟨List.mem_flatMap.mpr ⟨y', mem_searchYears.mpr ⟨hvisited ho' hpending', hy'⟩, ho'⟩,
        decide_eq_true hpending'⟩
    · have hlt := (mem_searchYears.mp hy).2
      exact Int.le_of_lt (occurrences_lt ho ho' (by omega))

end Occurrences

theorem january_valid (y : Int) : Date.Valid { year := y, month := 1, day := 25 } := by
  have hlength : monthLength y 1 = 31 := rfl
  unfold Date.Valid
  dsimp only
  omega

/-- New years on January 25, the date that the code falls back to. -/
def fallbackLunarNewYear : LunarNewYear where
  date y := { year := y, month := 1, day := 25 }
  valid := january_valid
  year_eq _ := rfl
  range _ := .inl ⟨rfl, Nat.le_of_ble_eq_true rfl⟩

theorem firstDay_range : 1 ≤ 1 ∧ 1 ≤ 31 := by decide

/-- The third Thursday of November. -/
def novemberRule : HolidayRule where
  holidayId := 2
  type := .nthWeekday
  month := 11
  day := 1
  weekday := 4
  dayOffset := -4
  timeOfDay := 60
  occurrence := 3
  month_range := ⟨Nat.le_of_ble_eq_true rfl, Nat.le_of_ble_eq_true rfl⟩
  day_range := firstDay_range
  weekday_lt := Nat.le_of_ble_eq_true rfl
  timeOfDay_lt := Nat.le_of_ble_eq_true rfl
  nth_range _ := ⟨Nat.le_of_ble_eq_true rfl, Nat.le_of_ble_eq_true rfl⟩
  quarter_range := HolidayRuleType.noConfusion

end EGServer.Holidays
