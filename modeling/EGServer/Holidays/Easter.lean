import EGServer.Lib.CivilCalendar

/-!
# Easter Sunday

`CalculateEasterSunday` is a chain of divisions and remainders. The computus it encodes is given
here by its definition: the golden number and the two corrections of the centuries fix the epact,
the epact the full moon, and Easter is the Sunday after that. `easter_spec` is the main result.
-/

namespace EGServer.Holidays

open CivilCalendar

/-! ## The code -/

/-- Divisions of `int32` round towards zero. -/
def CalculateEasterSunday (targetYear : Int) : Date :=
  let yearNumber := targetYear
  let metonicPosition := yearNumber.tmod 19
  let century := yearNumber.tdiv 100
  let yearInCentury := yearNumber.tmod 100
  let centuryLeapCycles := century.tdiv 4
  let centuryLeapRemainder := century.tmod 4
  let lunarCorrectionTerm := (century + 8).tdiv 25
  let lunarCorrection := (century - lunarCorrectionTerm + 1).tdiv 3
  let paschalFullMoon :=
    (19 * metonicPosition + century - centuryLeapCycles - lunarCorrection + 15).tmod 30
  let yearLeapCycles := yearInCentury.tdiv 4
  let yearLeapRemainder := yearInCentury.tmod 4
  let daysToSunday :=
    (32 + 2 * centuryLeapRemainder + 2 * yearLeapCycles - paschalFullMoon - yearLeapRemainder).tmod 7
  let lateAprilCorrection := (metonicPosition + 11 * paschalFullMoon + 22 * daysToSunday).tdiv 451
  let encodedDate := paschalFullMoon + daysToSunday - 7 * lateAprilCorrection + 114
  { year := targetYear
    month := (encodedDate.tdiv 31).toNat
    day := (encodedDate.tmod 31).toNat + 1 }

/-! ## The computus -/

def goldenNumber (y : Int) : Int := y % 19 + 1

/-- The leap days that the Gregorian calendar has left out: three in four centuries. -/
def solarCorrection (y : Int) : Int := 3 * (y / 100 + 1) / 4

/-- The days by which the moon is early: eight in 25 centuries. -/
def lunarCorrection (y : Int) : Int := (8 * (y / 100 + 1) + 5) / 25

/-- The age of the moon at the beginning of the year. -/
def epact (y : Int) : Int := (11 * goldenNumber y - 3 - solarCorrection y + lunarCorrection y) % 30

/-- The two exceptions: the epact 24 counts as 25, and 25 as 26 in the second half of the cycle of
19 years. -/
def paschalEpact (y : Int) : Int :=
  if epact y = 24 then 25 else if epact y = 25 ∧ 11 < goldenNumber y then 26 else epact y

/-- The days, counted on from March 0, from the 21st on that are full moons of the year. -/
def FullMoons (y : Int) : Set Int := { n | 21 ≤ n ∧ (n + paschalEpact y) % 30 = 14 }

/-- The day before March 1. -/
def marchZero (y : Int) : Int := (Date.toDays { year := y, month := 3, day := 1 }) - 1

/-- A day is the Easter Sunday of a year: the first Sunday after the first full moon. -/
def IsEaster (y n : Int) : Prop :=
  ∃ moon, IsLeast (FullMoons y) moon ∧ IsLeast { k | marchZero y + moon < k ∧ weekday k = 0 } n

/-! ## The code's variables -/

theorem monthStart_three (y : Int) : monthStart y 3 + 306 = yearLength y := by
  unfold monthStart monthLengths yearLength
  split <;> rfl

theorem monthStart_four (y : Int) : monthStart y 4 = monthStart y 3 + 31 := by
  unfold monthStart monthLengths
  split <;> rfl

theorem marchZero_eq (y : Int) :
    marchZero y = 365 * y + y / 4 - y / 100 + y / 400 - 719469 := by
  have hnext := yearStart_succ y
  have hmarch := monthStart_three y
  unfold marchZero Date.toDays
  unfold yearStart at hnext ⊢
  rw [Int.add_sub_cancel] at hnext
  dsimp only
  omega

theorem lunarCorrection_eq (c : Int) : (c - (c + 8) / 25 + 1) / 3 = (8 * (c + 1) + 5) / 25 := by
  omega

/-- From March 21 to the full moon, as the code has it. -/
def fullMoonOffset (y : Int) : Int :=
  (19 * (y % 19) + y / 100 - y / 400 - lunarCorrection y + 15) % 30

/-- From the day after that to the next Sunday. -/
def sundayOffset (y : Int) : Int :=
  (32 + 2 * (y / 100 % 4) + 2 * (y % 100 / 4) - fullMoonOffset y - y % 4) % 7

/-- The weeks that Easter is pulled back. -/
def lateCorrection (y : Int) : Int :=
  (y % 19 + 11 * fullMoonOffset y + 22 * sundayOffset y) / 451

/-- From March 22 to Easter. -/
def easterOffset (y : Int) : Int := fullMoonOffset y + sundayOffset y - 7 * lateCorrection y

theorem fullMoonOffset_bounds (y : Int) : 0 ≤ fullMoonOffset y ∧ fullMoonOffset y < 30 := by
  unfold fullMoonOffset
  omega

theorem sundayOffset_bounds (y : Int) : 0 ≤ sundayOffset y ∧ sundayOffset y < 7 := by
  unfold sundayOffset
  omega

theorem lateCorrection_eq (y : Int) :
    lateCorrection y = if sundayOffset y = 6 ∧
      (fullMoonOffset y = 29 ∨ fullMoonOffset y = 28 ∧ 11 ≤ y % 19) then 1 else 0 := by
  have hmoon := fullMoonOffset_bounds y
  have hsunday := sundayOffset_bounds y
  unfold lateCorrection
  split <;> omega

theorem easterOffset_bounds (y : Int) : 0 ≤ easterOffset y ∧ easterOffset y ≤ 34 := by
  have hmoon := fullMoonOffset_bounds y
  have hsunday := sundayOffset_bounds y
  have hlate := lateCorrection_eq y
  unfold easterOffset
  split at hlate <;> omega

theorem CalculateEasterSunday_eq {y : Int} (hy : 0 ≤ y) :
    CalculateEasterSunday y =
      { year := y
        month := ((easterOffset y + 114) / 31).toNat
        day := ((easterOffset y + 114) % 31).toNat + 1 } := by
  have hmetonic : y.tmod 19 = y % 19 := Int.tmod_eq_emod_of_nonneg hy
  have hcentury : y.tdiv 100 = y / 100 := Int.tdiv_eq_ediv_of_nonneg hy
  have hin : y.tmod 100 = y % 100 := Int.tmod_eq_emod_of_nonneg hy
  have hcycles : (y / 100).tdiv 4 = y / 400 := by
    rw [Int.tdiv_eq_ediv_of_nonneg (by omega)]
    omega
  have hremainder : (y / 100).tmod 4 = y / 100 % 4 := Int.tmod_eq_emod_of_nonneg (by omega)
  have hterm : (y / 100 + 8).tdiv 25 = (y / 100 + 8) / 25 := Int.tdiv_eq_ediv_of_nonneg (by omega)
  have hlunar : (y / 100 - (y / 100 + 8) / 25 + 1).tdiv 3 = lunarCorrection y := by
    rw [Int.tdiv_eq_ediv_of_nonneg (by omega), lunarCorrection_eq]
    rfl
  have hmoon : (19 * (y % 19) + y / 100 - y / 400 - lunarCorrection y + 15).tmod 30 =
      fullMoonOffset y := by
    unfold fullMoonOffset
    apply Int.tmod_eq_emod_of_nonneg
    unfold lunarCorrection
    omega
  have hyears : (y % 100).tdiv 4 = y % 100 / 4 := Int.tdiv_eq_ediv_of_nonneg (by omega)
  have hrest : (y % 100).tmod 4 = y % 4 := by
    rw [Int.tmod_eq_emod_of_nonneg (by omega)]
    omega
  have hbounds := fullMoonOffset_bounds y
  have hsunday : (32 + 2 * (y / 100 % 4) + 2 * (y % 100 / 4) - fullMoonOffset y - y % 4).tmod 7 =
      sundayOffset y := Int.tmod_eq_emod_of_nonneg (by omega)
  have hsbounds := sundayOffset_bounds y
  have hlate : (y % 19 + 11 * fullMoonOffset y + 22 * sundayOffset y).tdiv 451 =
      lateCorrection y := Int.tdiv_eq_ediv_of_nonneg (by omega)
  have hoffset := easterOffset_bounds y
  have hmonth : (easterOffset y + 114).tdiv 31 = (easterOffset y + 114) / 31 :=
    Int.tdiv_eq_ediv_of_nonneg (by omega)
  have hday : (easterOffset y + 114).tmod 31 = (easterOffset y + 114) % 31 :=
    Int.tmod_eq_emod_of_nonneg (by omega)
  simp only [CalculateEasterSunday, hmetonic, hcentury, hin, hcycles, hremainder, hterm, hlunar,
    hmoon, hyears, hrest, hsunday, hlate]
  rw [← easterOffset, hmonth, hday]

/-! ## The code computes Easter -/

theorem easter_date {y : Int} (hy : 0 ≤ y) :
    let d := CalculateEasterSunday y
    d.Valid ∧ d.toDays = marchZero y + 22 + easterOffset y ∧
      (d.month = 3 ∧ 22 ≤ d.day ∨ d.month = 4 ∧ d.day ≤ 25) := by
  have hbounds := easterOffset_bounds y
  have hlength : monthLength y 3 = 31 := rfl
  have hlength' : monthLength y 4 = 30 := rfl
  have hfour := monthStart_four y
  rw [CalculateEasterSunday_eq hy]
  unfold marchZero Date.toDays Date.Valid
  dsimp only
  by_cases h : easterOffset y ≤ 9
  · have hmonth : ((easterOffset y + 114) / 31).toNat = 3 := by omega
    rw [hmonth, hlength]
    omega
  · have hmonth : ((easterOffset y + 114) / 31).toNat = 4 := by omega
    rw [hmonth, hlength', hfour]
    omega

theorem epact_eq (y : Int) : epact y = (23 - fullMoonOffset y) % 30 := by
  grind [solarCorrection, goldenNumber, fullMoonOffset, epact]

theorem isLeast_fullMoons (y : Int) :
    IsLeast (FullMoons y) (21 + fullMoonOffset y -
      if fullMoonOffset y = 29 ∨ fullMoonOffset y = 28 ∧ 11 ≤ y % 19 then 1 else 0) := by
  have hmoon := fullMoonOffset_bounds y
  have hepact := epact_eq y
  have hpaschal : paschalEpact y = (23 - (fullMoonOffset y -
      if fullMoonOffset y = 29 ∨ fullMoonOffset y = 28 ∧ 11 ≤ y % 19 then 1 else 0)) % 30 := by
    unfold paschalEpact goldenNumber
    grind
  generalize hk : (if fullMoonOffset y = 29 ∨ fullMoonOffset y = 28 ∧ 11 ≤ y % 19 then (1 : Int)
    else 0) = k at hpaschal ⊢
  have hk' : k = 0 ∨ k = 1 ∧ 28 ≤ fullMoonOffset y := by
    split at hk <;> omega
  constructor
  · show 21 ≤ _ ∧ (_ + paschalEpact y) % 30 = 14
    omega
  · rintro n ⟨hn, hage⟩
    omega

theorem weekday_offset (y : Int) :
    weekday (marchZero y + 22 + fullMoonOffset y + sundayOffset y) = 0 := by
  have hcycles : y / 400 = y / 100 / 4 := by omega
  grind [sundayOffset, weekday, marchZero_eq]

/-- **Easter is computed correctly.** From the first year of the Gregorian calendar on, the result
is a date of the year, a Sunday from March 22 to April 25, and the Easter of the computus. -/
theorem easter_spec {y : Int} (hy : 1583 ≤ y) :
    (let d := CalculateEasterSunday y
     d.Valid ∧ d.year = y ∧ weekday d.toDays = 0 ∧
      (d.month = 3 ∧ 22 ≤ d.day ∨ d.month = 4 ∧ d.day ≤ 25) ∧ IsEaster y d.toDays) := by
  obtain ⟨hvalid, hdays, hrange⟩ := easter_date (y := y) (by omega)
  have hmoon := fullMoonOffset_bounds y
  have hsunday := sundayOffset_bounds y
  have hlate := lateCorrection_eq y
  have hweekday := weekday_offset y
  have heaster : weekday (CalculateEasterSunday y).toDays = 0 := by
    rw [hdays]
    unfold easterOffset
    unfold weekday at hweekday ⊢
    omega
  refine ⟨hvalid, rfl, heaster, hrange, _, isLeast_fullMoons y, ⟨?_, heaster⟩, ?_⟩
  · rw [hdays]
    unfold easterOffset
    split <;> split at hlate <;> omega
  · rintro k ⟨hk, hkday⟩
    grind [weekday, easterOffset]

theorem easter_spec_1981 : IsEaster 1981 (Date.toDays { year := 1981, month := 4, day := 19 }) :=
  (easter_spec (y := 1981) (by decide)).2.2.2.2

-- the second exception
example : CalculateEasterSunday 1954 = { year := 1954, month := 4, day := 18 } := by decide

end EGServer.Holidays
