import Mathlib.Algebra.Ring.Nat
import Mathlib.Algebra.Order.Ring.Int
import Mathlib.Data.List.Basic
import Mathlib.Order.Bounds.Basic
import Mathlib.Tactic.Common
import Mathlib.Tactic.IntervalCases

/-!
# The civil calendar

The Gregorian calendar without a beginning or an end: dates, the days counted from 1970-01-01, and
the weekdays. `toDays` and `ofDays` are inverse on the dates that exist, and `toDays` keeps the
order. `toDays` counts on where the day is too great for its month.
-/

namespace CivilCalendar

/-! ## Years and months -/

def isLeap (y : Int) : Bool := y % 4 = 0 && (y % 100 ≠ 0 || y % 400 = 0)

def monthLengths (y : Int) : List Nat :=
  [31, if isLeap y then 29 else 28, 31, 30, 31, 30, 31, 31, 30, 31, 30, 31]

/-- The length of a month, counted from 1. -/
def monthLength (y : Int) (month : Nat) : Nat := (monthLengths y).getD (month - 1) 0

/-- The days of the year before a month, counted from 1. -/
def monthStart (y : Int) (month : Nat) : Nat := ((monthLengths y).take (month - 1)).sum

def yearLength (y : Int) : Nat := if isLeap y then 366 else 365

/-- The days from 1970-01-01 to the first day of a year. -/
def yearStart (y : Int) : Int :=
  365 * (y - 1) + (y - 1) / 4 - (y - 1) / 100 + (y - 1) / 400 - 719162

theorem isLeap_iff {y : Int} : isLeap y = true ↔ y % 4 = 0 ∧ (y % 100 ≠ 0 ∨ y % 400 = 0) := by
  simp [isLeap]

theorem yearStart_succ (y : Int) : yearStart (y + 1) = yearStart y + yearLength y := by
  unfold yearStart yearLength
  by_cases h : isLeap y = true
  · rw [if_pos h]
    rw [isLeap_iff] at h
    omega
  · rw [if_neg h]
    rw [isLeap_iff] at h
    omega

theorem sum_monthLengths (y : Int) : (monthLengths y).sum = yearLength y := by
  unfold monthLengths yearLength
  split <;> rfl

/-! ## Dividing up a number of days -/

/-- The part that the `n`-th day falls in, and its number in that part. -/
def splitDays : List Nat → Nat → Nat × Nat
  | [], n => (0, n)
  | length :: rest, n =>
    if n < length then (0, n)
    else ((splitDays rest (n - length)).1 + 1, (splitDays rest (n - length)).2)

theorem splitDays_spec {lengths : List Nat} {n : Nat} (h : n < lengths.sum) :
    (lengths.take (splitDays lengths n).1).sum + (splitDays lengths n).2 = n ∧
      (splitDays lengths n).1 < lengths.length ∧
      (splitDays lengths n).2 < lengths.getD (splitDays lengths n).1 0 := by
  induction lengths generalizing n with
  | nil => exact absurd h (Nat.not_lt_zero n)
  | cons length rest ih =>
    grind [splitDays]

theorem splitDays_eq {lengths : List Nat} {i r : Nat} (hr : r < lengths.getD i 0) :
    splitDays lengths ((lengths.take i).sum + r) = (i, r) := by
  induction lengths generalizing i with
  | nil => simp at hr
  | cons length rest ih =>
    rw [splitDays]
    cases i with
    | zero =>
      rw [List.getD_cons_zero] at hr
      simp [hr]
    | succ i =>
      grind

/-! ## Dates -/

@[ext]
structure Date where
  year : Int
  month : Nat
  day : Nat
  deriving DecidableEq, Repr

namespace Date

/-- The date exists. -/
def Valid (d : Date) : Prop :=
  1 ≤ d.month ∧ d.month ≤ 12 ∧ 1 ≤ d.day ∧ d.day ≤ monthLength d.year d.month

instance (d : Date) : Decidable d.Valid := inferInstanceAs (Decidable (_ ∧ _ ∧ _ ∧ _))

/-- The days from 1970-01-01 to a date. -/
def toDays (d : Date) : Int := yearStart d.year + monthStart d.year d.month + d.day - 1

end Date

/-- The year of a day: the mean year is 146097 / 400 days long, and the quotient is a year off at
most. -/
def yearOf (n : Int) : Int :=
  let y := 400 * (n + 719162) / 146097 + 1
  if n < yearStart y then y - 1 else if yearStart (y + 1) ≤ n then y + 1 else y

theorem yearOf_spec (n : Int) : yearStart (yearOf n) ≤ n ∧ n < yearStart (yearOf n + 1) := by
  grind [yearStart, yearOf]

theorem yearStart_mono {y y' : Int} (h : y ≤ y') : yearStart y ≤ yearStart y' := by
  unfold yearStart
  omega

/-- A day is in one year only. -/
theorem yearOf_eq {n y : Int} (h : yearStart y ≤ n) (h' : n < yearStart (y + 1)) : yearOf n = y := by
  obtain ⟨h1, h2⟩ := yearOf_spec n
  by_contra hne
  rcases Int.lt_or_gt_of_ne hne with hlt | hgt
  · have := yearStart_mono (Int.add_one_le_of_lt hlt)
    omega
  · have := yearStart_mono (Int.add_one_le_of_lt hgt)
    omega

def ofDays (n : Int) : Date :=
  let y := yearOf n
  let p := splitDays (monthLengths y) (n - yearStart y).toNat
  { year := y, month := p.1 + 1, day := p.2 + 1 }

theorem lt_yearLength (n : Int) : (n - yearStart (yearOf n)).toNat < yearLength (yearOf n) := by
  obtain ⟨h1, h2⟩ := yearOf_spec n
  rw [yearStart_succ] at h2
  omega

theorem ofDays_valid (n : Int) : (ofDays n).Valid := by
  have hlt := lt_yearLength n
  rw [← sum_monthLengths] at hlt
  obtain ⟨-, hi, hr⟩ := splitDays_spec hlt
  have hlen : (monthLengths (yearOf n)).length = 12 := rfl
  refine ⟨Nat.succ_pos _, ?_, Nat.succ_pos _, ?_⟩
  · show _ + 1 ≤ 12
    omega
  · exact hr

theorem toDays_ofDays (n : Int) : (ofDays n).toDays = n := by
  have hlt := lt_yearLength n
  rw [← sum_monthLengths] at hlt
  obtain ⟨hsum, -, -⟩ := splitDays_spec hlt
  have h := (yearOf_spec n).1
  have hmonth : monthStart (yearOf n) (ofDays n).month =
      ((monthLengths (yearOf n)).take
        (splitDays (monthLengths (yearOf n)) (n - yearStart (yearOf n)).toNat).1).sum := rfl
  have hday : (ofDays n).day =
      (splitDays (monthLengths (yearOf n)) (n - yearStart (yearOf n)).toNat).2 + 1 := rfl
  show yearStart (yearOf n) + (monthStart (yearOf n) (ofDays n).month : Int) + (ofDays n).day - 1 = n
  rw [hmonth, hday]
  omega

theorem monthStart_add_le (y : Int) {m : Nat} (h1 : 1 ≤ m) (h12 : m ≤ 12) :
    monthStart y m + monthLength y m ≤ yearLength y := by
  unfold monthStart monthLength monthLengths yearLength
  interval_cases m <;> split <;> decide

/-- A date that exists is a day of its year. -/
theorem toDays_bounds {d : Date} (h : d.Valid) :
    yearStart d.year ≤ d.toDays ∧ d.toDays < yearStart (d.year + 1) := by
  obtain ⟨h1, h12, hday, hlen⟩ := h
  have hle := monthStart_add_le d.year h1 h12
  rw [yearStart_succ]
  unfold Date.toDays
  omega

theorem yearOf_toDays {d : Date} (h : d.Valid) : yearOf d.toDays = d.year :=
  yearOf_eq (toDays_bounds h).1 (toDays_bounds h).2

/-- **The dates are the days.** Counting the days to a date that exists and back gives the date. -/
theorem ofDays_toDays {d : Date} (h : d.Valid) : ofDays d.toDays = d := by
  have hyear := yearOf_toDays h
  obtain ⟨h1, h12, hday, hlen⟩ := h
  have hoff : (d.toDays - yearStart d.year).toNat =
      ((monthLengths d.year).take (d.month - 1)).sum + (d.day - 1) := by
    unfold Date.toDays monthStart
    omega
  have hsplit : splitDays (monthLengths d.year) (d.toDays - yearStart d.year).toNat =
      (d.month - 1, d.day - 1) := by
    rw [hoff]
    apply splitDays_eq
    unfold monthLength at hlen
    omega
  have hmonth : d.month - 1 + 1 = d.month := by omega
  have hd : d.day - 1 + 1 = d.day := by omega
  unfold ofDays
  rw [hyear]
  dsimp only
  rw [hsplit, hmonth, hd]

theorem toDays_injective {d d' : Date} (h : d.Valid) (h' : d'.Valid) (heq : d.toDays = d'.toDays) :
    d = d' := by
  rw [← ofDays_toDays h, heq, ofDays_toDays h']

/-! ## The order of the dates -/

theorem monthStart_succ (y : Int) {m : Nat} (h1 : 1 ≤ m) (h12 : m ≤ 12) :
    monthStart y (m + 1) = monthStart y m + monthLength y m := by
  unfold monthStart monthLength monthLengths
  interval_cases m <;> split <;> decide

theorem monthStart_mono (y : Int) {m m' : Nat} (h1 : 1 ≤ m) (h : m ≤ m') (h13 : m' ≤ 13) :
    monthStart y m ≤ monthStart y m' := by
  induction h with
  | refl => exact Nat.le_refl _
  | @step k h ih =>
    grind [monthStart_succ]

/-- Dates compare as their years, then as their months, then as their days. -/
def Date.Before (d d' : Date) : Prop :=
  d.year < d'.year ∨ d.year = d'.year ∧ (d.month < d'.month ∨ d.month = d'.month ∧ d.day < d'.day)

theorem toDays_lt_of_before {d d' : Date} (h : d.Valid) (h' : d'.Valid) (hlt : d.Before d') :
    d.toDays < d'.toDays := by
  obtain ⟨h1, h12, hday, hlen⟩ := h
  obtain ⟨h1', h12', hday', -⟩ := h'
  unfold Date.toDays
  rcases hlt with hyear | ⟨hyear, hmonth | ⟨hmonth, hd⟩⟩
  · have hle := monthStart_add_le d.year h1 h12
    have hnext := yearStart_mono (Int.add_one_le_of_lt hyear)
    rw [yearStart_succ] at hnext
    omega
  · rw [← hyear]
    have hnext := monthStart_mono d.year (Nat.succ_le_succ (Nat.zero_le d.month)) hmonth (by omega)
    rw [monthStart_succ d.year h1 h12] at hnext
    omega
  · rw [← hyear, ← hmonth]
    omega

/-- **The order of the days is the order of the dates.** -/
theorem toDays_lt_iff {d d' : Date} (h : d.Valid) (h' : d'.Valid) :
    d.toDays < d'.toDays ↔ d.Before d' := by
  refine ⟨fun hlt => ?_, toDays_lt_of_before h h'⟩
  by_contra hno
  have hge : d'.Before d ∨ d' = d := by
    grind [Date.Before, Date.ext]
  rcases hge with hbefore | heq
  · have := toDays_lt_of_before h' h hbefore
    omega
  · rw [heq] at hlt
    omega

/-! ## Weekdays -/

/-- The weekday of a day, Sunday being 0; 1970-01-01 was a Thursday. -/
def weekday (n : Int) : Nat := ((n + 4) % 7).toNat

theorem weekday_lt (n : Int) : weekday n < 7 := by
  unfold weekday
  omega

/-- The days from a day to the next one, itself included, that has a weekday. -/
def daysUntil (n : Int) (w : Nat) : Nat := (w + 7 - weekday n) % 7

theorem daysUntil_lt (n : Int) (w : Nat) : daysUntil n w < 7 := Nat.mod_lt _ (by decide)

theorem weekday_add_daysUntil (n : Int) {w : Nat} (hw : w < 7) :
    weekday (n + daysUntil n w) = w := by
  have := weekday_lt n
  unfold daysUntil weekday at *
  omega

/-- It is the first day from `n` on that has the weekday. -/
theorem isLeast_daysUntil (n : Int) {w : Nat} (hw : w < 7) :
    IsLeast { k | n ≤ k ∧ weekday k = w } (n + daysUntil n w) := by
  refine ⟨⟨by omega, weekday_add_daysUntil n hw⟩, ?_⟩
  rintro k ⟨hk, rfl⟩
  unfold daysUntil weekday
  omega

end CivilCalendar
