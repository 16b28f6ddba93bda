import EGServer.Holidays.Rules
import EGServer.Lib.Loop
import Mathlib.Algebra.Order.Group.Int

/-!
# Anchors

`GetWeeklyAnchor` and `GetLocalWallClockAnchor`, which move the start of an event to its latest
occurrence in local time. The loop of the second one is run for a number of turns at most.
-/

namespace EGServer.Holidays

open CivilCalendar

/-! ## The code -/

/-- The difference of two weekdays: the days from `y` on to `x`. -/
def weekdaySub (x y : Nat) : Nat := (x + 7 - y) % 7

def GetWeeklyAnchor (zone : Int) (rule : HolidayRule) (referenceTime : Int) : Option Int :=
  if !rule.isWeekly then none
  else
    let today := (LocalDateOf zone referenceTime).toDays
    let target := today - weekdaySub (weekday today) rule.weekday
    let anchor := ToLocalTimestamp zone (ofDays target) (rule.timeOfDay * 60)
    if anchor > referenceTime then
      some (ToLocalTimestamp zone (ofDays (target - 7)) (rule.timeOfDay * 60))
    else some anchor

/-- Minutes of a day. -/
def oneDay : Int := 24 * 60

/-- A turn of `while (anchor > referenceTime) anchor -= period`. -/
def fallBack (seconds referenceTime anchor : Int) : Loop.Turn Int Int :=
  if anchor > referenceTime then .again (anchor - seconds) else .leave anchor

/-- The result is `none` where the loop is not left within `turns` turns. `period` is in minutes. -/
def GetLocalWallClockAnchor (zone : Int) (turns : Nat) (originalStart period referenceTime : Int) :
    Option (Option Int) :=
  if period ≤ 0 then some none
  else if referenceTime ≤ originalStart then some (some originalStart)
  else
    let original := TimeBreakdown zone originalStart
    let originalTimeOfDay := original.hour * 3600 + original.min * 60 + original.sec
    if period < oneDay ∧ oneDay.tmod period = 0 then
      let anchor := ToLocalTimestamp zone (LocalDateOf zone referenceTime)
        (originalTimeOfDay.tmod (period * 60))
      (Loop.run (fallBack (period * 60) referenceTime) turns anchor).map some
    else if period.tmod oneDay = 0 then
      let periodDays := period.tdiv oneDay
      let originalDay := (LocalDateOf zone originalStart).toDays
      let referenceDay := (LocalDateOf zone referenceTime).toDays
      let elapsed := referenceDay - originalDay
      let anchorDay := originalDay + periodDays * elapsed.tdiv periodDays
      let anchor := ToLocalTimestamp zone (ofDays anchorDay) originalTimeOfDay
      if anchor > referenceTime then
        some (some (ToLocalTimestamp zone (ofDays (anchorDay - periodDays)) originalTimeOfDay))
      else some (some anchor)
    else some none

/-! ## The weekly anchor -/

theorem LocalDateOf_toDays (zone timestamp : Int) :
    (LocalDateOf zone timestamp).toDays = localDay zone timestamp := by
  rw [LocalDateOf_eq, toDays_ofDays]

theorem ToLocalTimestamp_ofDays {zone timeOfDay : Int} (n : Int) (h : 0 ≤ timeOfDay) :
    ToLocalTimestamp zone (ofDays n) timeOfDay = timestampOf zone n timeOfDay := by
  rw [ToLocalTimestamp_eq h, toDays_ofDays]

/-- The times that a weekly rule names. -/
def WeeklyTimes (zone : Int) (rule : HolidayRule) : Set Int :=
  { t | weekday (localDay zone t) = rule.weekday ∧ localTimeOfDay zone t = rule.timeOfDay * 60 }

theorem timeOfDay_lt_day (rule : HolidayRule) : (rule.timeOfDay : Int) * 60 < SECONDS_PER_DAY := by
  have := rule.timeOfDay_lt
  unfold SECONDS_PER_DAY
  omega

theorem mem_weeklyTimes {zone : Int} {rule : HolidayRule} {n : Int} (h : weekday n = rule.weekday) :
    timestampOf zone n (rule.timeOfDay * 60) ∈ WeeklyTimes zone rule := by
  have hlt := timeOfDay_lt_day rule
  refine ⟨?_, localTimeOfDay_timestampOf (by omega) hlt⟩
  rw [localDay_timestampOf (by omega) hlt, h]

/-- **The weekly anchor is the latest occurrence.** -/
theorem weekly_isGreatest {rule : HolidayRule} (hweekly : rule.isWeekly = true)
    (zone referenceTime : Int) :
    ∃ anchor, GetWeeklyAnchor zone rule referenceTime = some anchor ∧
      IsGreatest { t | t ∈ WeeklyTimes zone rule ∧ t ≤ referenceTime } anchor := by
  have hlt := timeOfDay_lt_day rule
  have hweekday := rule.weekday_lt
  have hreference := timestampOf_localDay zone referenceTime
  have hbounds := localTimeOfDay_bounds zone referenceTime
  rw [GetWeeklyAnchor, if_neg (by simp [hweekly])]
  dsimp only
  rw [LocalDateOf_toDays, ToLocalTimestamp_ofDays _ (by omega), ToLocalTimestamp_ofDays _ (by omega)]
  generalize htoday : localDay zone referenceTime = today at hreference
  generalize hback : (weekdaySub (weekday today) rule.weekday : Int) = back
  have hback7 : 0 ≤ back ∧ back < 7 := by
    unfold weekdaySub at hback
    omega
  have hmod : weekday (today - back) = rule.weekday := by
    have := weekday_lt today
    unfold weekdaySub weekday at *
    omega
  have hmod' : weekday (today - back - 7) = rule.weekday := by
    unfold weekday at *
    omega
  -- an earlier time of the rule is a week earlier at least
  have hlast : ∀ t ∈ WeeklyTimes zone rule, t ≤ referenceTime →
      t ≤ timestampOf zone (today - back) (rule.timeOfDay * 60) ∧
        (t < timestampOf zone (today - back) (rule.timeOfDay * 60) →
          t ≤ timestampOf zone (today - back - 7) (rule.timeOfDay * 60)) := by
    rintro t ⟨hday, htime⟩ ht
    have heq := timestampOf_localDay zone t
    rw [htime] at heq
    unfold weekday at hday hmod
    unfold timestampOf SECONDS_PER_DAY at *
    omega
  split
  · next hafter =>
    refine ⟨_, rfl, ⟨mem_weeklyTimes hmod', ?_⟩, ?_⟩
    · unfold timestampOf SECONDS_PER_DAY at *
      omega
    · rintro t ⟨ht, hle⟩
      exact (hlast t ht hle).2 (by omega)
  · next hbefore =>
    refine ⟨_, rfl, ⟨mem_weeklyTimes hmod, by omega⟩, ?_⟩
    rintro t ⟨ht, hle⟩
    exact (hlast t ht hle).1

/-! ## The wall clock anchor -/

theorem fields_timeOfDay (zone t : Int) :
    (TimeBreakdown zone t).hour * 3600 + (TimeBreakdown zone t).min * 60 +
      (TimeBreakdown zone t).sec = localTimeOfDay zone t := by
  unfold TimeBreakdown
  dsimp only
  omega

/-- **The loop ends**, at a time in phase with its start and less than a period before the
reference, unless it was not entered. -/
theorem fallBack_run {seconds referenceTime anchor : Int} (hpos : 0 < seconds) {turns : Nat}
    (hturns : (anchor - referenceTime).toNat < turns) :
    ∃ result, Loop.run (fallBack seconds referenceTime) turns anchor = some result ∧
      result ≤ referenceTime ∧ (result = anchor ∨ referenceTime < result + seconds) ∧
      seconds ∣ anchor - result := by
  refine Loop.exists_run
    (I := fun a => (a = anchor ∨ referenceTime < a + seconds) ∧ seconds ∣ anchor - a)
    (fun a => (a - referenceTime).toNat) ?_ ⟨.inl rfl, by simp⟩ hturns
  rintro a ⟨hnear, hphase⟩
  by_cases hafter : a > referenceTime
  · left
    refine ⟨a - seconds, if_pos hafter, ⟨.inr (by omega), ?_⟩, by omega⟩
    have hsum : anchor - (a - seconds) = (anchor - a) + seconds := by omega
    rw [hsum]
    exact Int.dvd_add hphase (Int.dvd_refl seconds)
  · right
    exact ⟨a, if_neg hafter, by omega, hnear, hphase⟩

/-- The times that the anchor of a whole number of days is taken from. -/
def Repetitions (originalStart seconds : Int) : Set Int :=
  { t | ∃ k : Nat, t = originalStart + k * seconds }

/-- What the anchor of an event is to be: for whole days the latest repetition, for a part of a day
a time in phase, and for other periods nothing. -/
def IsWallClockAnchor (originalStart period referenceTime : Int) (anchor : Option Int) : Prop :=
  (0 < period ∧ oneDay ∣ period → ∃ a, anchor = some a ∧
    IsGreatest { t | t ∈ Repetitions originalStart (period * 60) ∧ t ≤ referenceTime } a) ∧
  (0 < period ∧ period ∣ oneDay → ∃ a, anchor = some a ∧
    a ≤ referenceTime ∧ referenceTime < a + SECONDS_PER_DAY ∧ period * 60 ∣ a - originalStart) ∧
  (¬(0 < period ∧ (oneDay ∣ period ∨ period ∣ oneDay)) → anchor = none)

theorem dvd_of_mem_repetitions {originalStart seconds t : Int} (h : t ∈ Repetitions originalStart seconds) :
    seconds ∣ t - originalStart := by
  obtain ⟨k, rfl⟩ := h
  exact ⟨k, by rw [Int.mul_comm]; omega⟩

theorem isGreatest_repetition {originalStart seconds referenceTime : Int} {k : Nat}
    (hpos : 0 < seconds) (hle : originalStart + k * seconds ≤ referenceTime)
    (hlt : referenceTime < originalStart + (k + 1) * seconds) :
    IsGreatest { t | t ∈ Repetitions originalStart seconds ∧ t ≤ referenceTime }
      (originalStart + k * seconds) := by
  refine ⟨⟨⟨k, rfl⟩, hle⟩, ?_⟩
  rintro t ⟨⟨k', rfl⟩, hle'⟩
  have hk : k' ≤ k := by
    by_contra hgt
    have hmul : ((k : Int) + 1) * seconds ≤ k' * seconds :=
      Int.mul_le_mul_of_nonneg_right (by omega) (Int.le_of_lt hpos)
    omega
  have hmul : (k' : Int) * seconds ≤ k * seconds :=
    Int.mul_le_mul_of_nonneg_right (by omega) (Int.le_of_lt hpos)
  omega

/-- A period of days: the anchor is the latest repetition. -/
theorem days_isGreatest {zone originalStart referenceTime p : Int} (hp : 0 < p)
    (hafter : originalStart < referenceTime) :
    let originalDay := localDay zone originalStart
    let elapsed := localDay zone referenceTime - originalDay
    let anchorDay := originalDay + p * (elapsed / p)
    let anchor := timestampOf zone anchorDay (localTimeOfDay zone originalStart)
    IsGreatest { t | t ∈ Repetitions originalStart (p * SECONDS_PER_DAY) ∧ t ≤ referenceTime }
      (if anchor > referenceTime then
        timestampOf zone (anchorDay - p) (localTimeOfDay zone originalStart)
      else anchor) := by
  intro originalDay elapsed anchorDay anchor
  have hstart := timestampOf_localDay zone originalStart
  have hreference := timestampOf_localDay zone referenceTime
  have hbounds := localTimeOfDay_bounds zone originalStart
  have hbounds' := localTimeOfDay_bounds zone referenceTime
  have helapsed : 0 ≤ elapsed := by
    unfold timestampOf SECONDS_PER_DAY at *
    omega
  have hquot : 0 ≤ elapsed / p := Int.ediv_nonneg helapsed (Int.le_of_lt hp)
  obtain ⟨k, hk⟩ := Int.eq_ofNat_of_zero_le hquot
  have hmod := Int.mul_ediv_add_emod elapsed p
  have hrest := Int.emod_nonneg elapsed (Int.ne_of_gt hp)
  have hrest' := Int.emod_lt_of_pos elapsed hp
  have hsteps : ∀ j : Int, timestampOf zone (originalDay + p * j)
      (localTimeOfDay zone originalStart) = originalStart + j * (p * SECONDS_PER_DAY) := by
    grind [timestampOf]
  have hanchor : anchor = originalStart + k * (p * SECONDS_PER_DAY) := by
    have := hsteps k
    rwa [← hk] at this ⊢
  have hseconds : 0 < p * SECONDS_PER_DAY := Int.mul_pos hp (by decide)
  have hnext : referenceTime < originalStart + ((k : Int) + 1) * (p * SECONDS_PER_DAY) := by
    have hstep := hsteps ((k : Int) + 1)
    rw [← hstep, Int.mul_add, Int.mul_one, ← hk]
    unfold timestampOf SECONDS_PER_DAY at *
    omega
  split
  · next hlate =>
    -- the reference is before the anchor of its own day, which is not the original start
    have hk0 : k ≠ 0 := by
      intro hzero
      rw [hanchor, hzero] at hlate
      simp at hlate
      omega
    obtain ⟨j, rfl⟩ := Nat.exists_eq_succ_of_ne_zero hk0
    have hback : timestampOf zone (anchorDay - p) (localTimeOfDay zone originalStart) =
        originalStart + (j : Int) * (p * SECONDS_PER_DAY) := by
      rw [← hsteps j]
      grind
    have hday : anchorDay ≤ localDay zone referenceTime := by
      show originalDay + p * (elapsed / p) ≤ _
      omega
    have hle : timestampOf zone (anchorDay - p) (localTimeOfDay zone originalStart) ≤
        referenceTime := by
      unfold timestampOf SECONDS_PER_DAY at *
      omega
    rw [hback] at hle ⊢
    apply isGreatest_repetition hseconds hle
    · rw [hanchor] at hlate
      push_cast at hlate
      omega
  · next hearly =>
    rw [hanchor] at hearly ⊢
    exact isGreatest_repetition hseconds (by omega) hnext

theorem part_of_day {zone originalStart period referenceTime : Int} {turns : Nat} (hpos : 0 < period)
    (hpart : period ∣ oneDay) (hturns : 86400 ≤ turns) :
    ∃ a, Loop.run (fallBack (period * 60) referenceTime) turns
        (timestampOf zone (localDay zone referenceTime)
          ((localTimeOfDay zone originalStart).tmod (period * 60))) = some a ∧
      a ≤ referenceTime ∧ referenceTime < a + SECONDS_PER_DAY ∧ period * 60 ∣ a - originalStart := by
  have hstart := timestampOf_localDay zone originalStart
  have hreference := timestampOf_localDay zone referenceTime
  have hbounds := localTimeOfDay_bounds zone originalStart
  have hbounds' := localTimeOfDay_bounds zone referenceTime
  have hday : period * 60 ∣ SECONDS_PER_DAY := by
    obtain ⟨c, hc⟩ := hpart
    refine ⟨c, ?_⟩
    have hmul : SECONDS_PER_DAY = oneDay * 60 := rfl
    rw [hmul, hc, Int.mul_right_comm]
  have hperiod : period * 60 ≤ SECONDS_PER_DAY := Int.le_of_dvd (by decide) hday
  have htmod : (localTimeOfDay zone originalStart).tmod (period * 60) =
      localTimeOfDay zone originalStart % (period * 60) := Int.tmod_eq_emod_of_nonneg hbounds.1
  have hphase := Int.emod_nonneg (localTimeOfDay zone originalStart)
    (show period * 60 ≠ 0 by omega)
  have hphase' := Int.emod_lt_of_pos (localTimeOfDay zone originalStart)
    (show 0 < period * 60 by omega)
  have hcongr : period * 60 ∣
      localTimeOfDay zone originalStart - localTimeOfDay zone originalStart % (period * 60) :=
    Int.dvd_self_sub_emod
  rw [htmod]
  generalize localTimeOfDay zone originalStart % (period * 60) = phase at *
  generalize hanchor : timestampOf zone (localDay zone referenceTime) phase = anchor
  have hfew : (anchor - referenceTime).toNat < turns := by
    unfold timestampOf SECONDS_PER_DAY at *
    omega
  obtain ⟨a, hrun, hle, hnear, hdvd⟩ := fallBack_run (show 0 < period * 60 by omega) hfew
  refine ⟨a, hrun, hle, ?_, ?_⟩
  · unfold timestampOf SECONDS_PER_DAY at *
    omega
  · -- both are in phase with the local midnight
    have hdays : period * 60 ∣
        (localDay zone referenceTime - localDay zone originalStart) * SECONDS_PER_DAY :=
      Dvd.dvd.mul_left hday _
    have hsum : a - originalStart =
        (localDay zone referenceTime - localDay zone originalStart) * SECONDS_PER_DAY -
          (localTimeOfDay zone originalStart - phase) - (anchor - a) := by
      rw [Int.sub_mul]
      unfold timestampOf at *
      omega
    rw [hsum]
    exact Int.dvd_sub (Int.dvd_sub hdays hcongr) hdvd

theorem phase_of_isGreatest {originalStart period referenceTime a : Int} (hpos : 0 < period)
    (hle : period ≤ oneDay)
    (h : IsGreatest { t | t ∈ Repetitions originalStart (period * 60) ∧ t ≤ referenceTime } a) :
    a ≤ referenceTime ∧ referenceTime < a + SECONDS_PER_DAY ∧ period * 60 ∣ a - originalStart := by
  obtain ⟨⟨hmem, hbefore⟩, hlast⟩ := h
  refine ⟨hbefore, ?_, dvd_of_mem_repetitions hmem⟩
  by_contra hlate
  obtain ⟨k, rfl⟩ := hmem
  unfold oneDay at hle
  unfold SECONDS_PER_DAY at hlate
  have hnext := @hlast (originalStart + ((k + 1 : Nat) : Int) * (period * 60)) ⟨⟨k + 1, rfl⟩, by
    push_cast
    rw [Int.add_mul]
    omega⟩
  push_cast at hnext
  rw [Int.add_mul] at hnext
  omega

/-- **The wall clock anchor.** From the reference times after the original start, with turns for the
seconds of a day, the loop is left and the anchor is the one that the period asks for. -/
theorem wallClock_spec (zone : Int) {turns : Nat} (hturns : 86400 ≤ turns)
    (originalStart period referenceTime : Int) (hafter : originalStart < referenceTime) :
    ∃ anchor, GetLocalWallClockAnchor zone turns originalStart period referenceTime = some anchor ∧
      IsWallClockAnchor originalStart period referenceTime anchor := by
  unfold GetLocalWallClockAnchor
  by_cases hpos : period ≤ 0
  · rw [if_pos hpos]
    exact ⟨none, rfl, by omega, by omega, fun _ => rfl⟩
  rw [if_neg hpos, if_neg (by omega)]
  have hpos : 0 < period := by omega
  have hbounds := localTimeOfDay_bounds zone originalStart
  have htmod : oneDay.tmod period = 0 ↔ period ∣ oneDay := by
    rw [Int.tmod_eq_emod_of_nonneg (by decide)]
    exact Int.dvd_iff_emod_eq_zero.symm
  have htmod' : period.tmod oneDay = 0 ↔ oneDay ∣ period := by
    rw [Int.tmod_eq_emod_of_nonneg (by omega)]
    exact Int.dvd_iff_emod_eq_zero.symm
  have hle : period ∣ oneDay → period ≤ oneDay := Int.le_of_dvd (by decide)
  have hge : oneDay ∣ period → oneDay ≤ period := Int.le_of_dvd hpos
  dsimp only
  rw [fields_timeOfDay]
  by_cases hpart : period < oneDay ∧ oneDay.tmod period = 0
  · have hdvd := htmod.mp hpart.2
    obtain ⟨a, hrun, hresult⟩ := part_of_day hpos hdvd hturns
    rw [if_pos hpart, ToLocalTimestamp_eq (Int.tmod_nonneg _ hbounds.1), LocalDateOf_toDays, hrun]
    refine ⟨some a, rfl, fun hdays => ?_, fun _ => ⟨a, rfl, hresult⟩, fun hno => ?_⟩
    · have := hge hdays.2
      omega
    · exact absurd ⟨hpos, .inr hdvd⟩ hno
  rw [if_neg hpart]
  by_cases hdays : period.tmod oneDay = 0
  · obtain ⟨p, hp⟩ := htmod'.mp hdays
    have hp0 : 0 < p := by
      unfold oneDay at hp
      omega
    have hquot : period.tdiv oneDay = p := by
      rw [hp, Int.mul_tdiv_cancel_left _ (by decide)]
    have hseconds : p * SECONDS_PER_DAY = period * 60 := by
      rw [hp]
      unfold SECONDS_PER_DAY oneDay
      omega
    have helapsed : 0 ≤ localDay zone referenceTime - localDay zone originalStart := by
      unfold localDay SECONDS_PER_DAY
      omega
    have hgreatest := @days_isGreatest zone originalStart referenceTime p hp0 hafter
    rw [if_pos hdays, hquot, LocalDateOf_toDays, LocalDateOf_toDays,
      Int.tdiv_eq_ediv_of_nonneg helapsed, ToLocalTimestamp_ofDays _ hbounds.1,
      ToLocalTimestamp_ofDays _ hbounds.1]
    dsimp only at hgreatest
    rw [hseconds] at hgreatest
    refine ⟨_, (apply_ite (fun a => some (some a)) _ _ _).symm, fun _ => ⟨_, rfl, hgreatest⟩,
      fun hpart' => ⟨_, rfl, ?_⟩, fun hno => ?_⟩
    · exact phase_of_isGreatest hpos (hle hpart'.2) hgreatest
    · exact absurd ⟨hpos, .inl (htmod'.mp hdays)⟩ hno
  · rw [if_neg hdays]
    have hnot : ¬oneDay ∣ period := fun h => hdays (htmod'.mpr h)
    have hnot' : ¬period ∣ oneDay := by
      grind
    refine ⟨none, rfl, fun h => absurd h.2 hnot, fun h => absurd h.2 hnot', fun _ => rfl⟩

/-- Every Sunday at six. -/
def sundays : HolidayRule where
  holidayId := 1
  type := .weeklyWeekday
  month := 1
  day := 1
  weekday := 0
  dayOffset := 0
  timeOfDay := 6 * 60
  occurrence := 0
  month_range := by decide
  day_range := by decide
  weekday_lt := by decide
  timeOfDay_lt := by decide
  nth_range := by decide
  quarter_range := by decide

end EGServer.Holidays
