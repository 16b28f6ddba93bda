import EGServer.Holidays.Rules
import Mathlib.Order.Compare

/-!
# Packed dates

A `WowTime`, whose fields are `-1` where they are unset, and the number that the client gets for it.
In the number a field is unset when its bits are all ones. `SetYear` admits 31, which are the five
ones of an unset year, and `PackDate` packs the dates of 2031.
-/

namespace EGServer.Holidays

open CivilCalendar

/-! ## The fields -/

/-- The holiday offset is not packed. -/
@[ext]
structure WowTime where
  year : Int := -1
  month : Int := -1
  monthDay : Int := -1
  weekDay : Int := -1
  hour : Int := -1
  minute : Int := -1
  flags : Int := -1
  deriving DecidableEq

namespace WowTime

/-- The `ASSERT` of a setter. -/
def Admits (bound value : Int) : Prop := value = -1 ∨ 0 ≤ value ∧ value < bound

instance (bound value : Int) : Decidable (Admits bound value) :=
  inferInstanceAs (Decidable (_ ∨ _ ∧ _))

/-! A setter gives no time where its `ASSERT` stops the server. -/

def SetYear (w : WowTime) (year : Int) : Option WowTime :=
  if Admits 32 year then some { w with year := year } else none

def SetMonth (w : WowTime) (month : Int) : Option WowTime :=
  if Admits 12 month then some { w with month := month } else none

def SetMonthDay (w : WowTime) (monthDay : Int) : Option WowTime :=
  if Admits 32 monthDay then some { w with monthDay := monthDay } else none

def SetWeekDay (w : WowTime) (weekDay : Int) : Option WowTime :=
  if Admits 7 weekDay then some { w with weekDay := weekDay } else none

def SetHour (w : WowTime) (hour : Int) : Option WowTime :=
  if Admits 24 hour then some { w with hour := hour } else none

def SetMinute (w : WowTime) (minute : Int) : Option WowTime :=
  if Admits 60 minute then some { w with minute := minute } else none

def SetFlags (w : WowTime) (flags : Int) : Option WowTime :=
  if Admits 3 flags then some { w with flags := flags } else none

/-- A call of a setter. -/
inductive Setter where
  | year (value : Int)
  | month (value : Int)
  | monthDay (value : Int)
  | weekDay (value : Int)
  | hour (value : Int)
  | minute (value : Int)
  | flags (value : Int)

def Setter.call (w : WowTime) : Setter → Option WowTime
  | year value => w.SetYear value
  | month value => w.SetMonth value
  | monthDay value => w.SetMonthDay value
  | weekDay value => w.SetWeekDay value
  | hour value => w.SetHour value
  | minute value => w.SetMinute value
  | flags value => w.SetFlags value

/-- The times whose fields were set through the setters. -/
inductive Built : WowTime → Prop
  | unset : Built {}
  | set {w w' : WowTime} (setter : Setter) (hw : Built w) (h : setter.call w = some w') : Built w'

/-- Every field has a value that its setter admits. -/
structure InRange (w : WowTime) : Prop where
  year : Admits 32 w.year
  month : Admits 12 w.month
  monthDay : Admits 32 w.monthDay
  weekDay : Admits 7 w.weekDay
  hour : Admits 24 w.hour
  minute : Admits 60 w.minute
  flags : Admits 3 w.flags

theorem InRange.call {w w' : WowTime} {setter : Setter} (hw : w.InRange)
    (h : setter.call w = some w') : w'.InRange := by
  cases setter with
  | year value =>
    obtain ⟨hvalue, heq⟩ := Option.ite_none_right_eq_some.mp h
    cases heq
    exact { hw with year := hvalue }
  | month value =>
    obtain ⟨hvalue, heq⟩ := Option.ite_none_right_eq_some.mp h
    cases heq
    exact { hw with month := hvalue }
  | monthDay value =>
    obtain ⟨hvalue, heq⟩ := Option.ite_none_right_eq_some.mp h
    cases heq
    exact { hw with monthDay := hvalue }
  | weekDay value =>
    obtain ⟨hvalue, heq⟩ := Option.ite_none_right_eq_some.mp h
    cases heq
    exact { hw with weekDay := hvalue }
  | hour value =>
    obtain ⟨hvalue, heq⟩ := Option.ite_none_right_eq_some.mp h
    cases heq
    exact { hw with hour := hvalue }
  | minute value =>
    obtain ⟨hvalue, heq⟩ := Option.ite_none_right_eq_some.mp h
    cases heq
    exact { hw with minute := hvalue }
  | flags value =>
    obtain ⟨hvalue, heq⟩ := Option.ite_none_right_eq_some.mp h
    cases heq
    exact { hw with flags := hvalue }

theorem Built.inRange {w : WowTime} (h : w.Built) : w.InRange := by
  induction h with
  | unset => exact ⟨.inl rfl, .inl rfl, .inl rfl, .inl rfl, .inl rfl, .inl rfl, .inl rfl⟩
  | set setter _ h ih => exact ih.call h

/-! ## Packing -/

/-- `value & mask` of a signed value, for a mask of ones at the low end. -/
def maskBits (value : Int) (mask : Nat) : Nat := (value % (mask + 1)).toNat

def GetPackedTime (w : WowTime) : Nat :=
  maskBits (w.year.tmod 100) 0x1F <<< 24
    ||| maskBits w.month 0xF <<< 20
    ||| maskBits w.monthDay 0x3F <<< 14
    ||| maskBits w.weekDay 0x7 <<< 11
    ||| maskBits w.hour 0x1F <<< 6
    ||| maskBits w.minute 0x3F
    ||| maskBits w.flags 0x3 <<< 29

/-- A field of a packed time; all ones are an unset field. -/
def readField (packedTime shift mask : Nat) : Int :=
  let value := packedTime >>> shift &&& mask
  if value = mask then -1 else value

def SetPackedTime (packedTime : Nat) : WowTime where
  year := readField packedTime 24 0x1F
  month := readField packedTime 20 0xF
  monthDay := readField packedTime 14 0x3F
  weekDay := readField packedTime 11 0x7
  hour := readField packedTime 6 0x1F
  minute := readField packedTime 0 0x3F
  flags := readField packedTime 29 0x3

theorem maskBits_lt (value : Int) (mask : Nat) : maskBits value mask < mask + 1 := by
  have hlt := @Int.emod_lt_of_pos value (mask + 1) (by omega)
  unfold maskBits
  omega

theorem maskBits_unset (mask : Nat) : maskBits (-1) mask = mask := by
  unfold maskBits
  rw [Int.emod_eq_add_self_emod, Int.emod_eq_of_lt (by omega) (by omega)]
  omega

theorem maskBits_of_lt {value : Int} {mask : Nat} (h : 0 ≤ value) (h' : value < mask + 1) :
    (maskBits value mask : Int) = value := by
  unfold maskBits
  rw [Int.emod_eq_of_lt h h', Int.toNat_of_nonneg h]

theorem shiftLeft_or {a b n : Nat} (h : b < 2 ^ n) : a <<< n ||| b = a * 2 ^ n + b := by
  rw [← Nat.shiftLeft_add_eq_or_of_lt h, Nat.shiftLeft_eq]

theorem GetPackedTime_eq (w : WowTime) : w.GetPackedTime =
    maskBits w.flags 0x3 * 2 ^ 29 + (maskBits (w.year.tmod 100) 0x1F * 2 ^ 24 +
      (maskBits w.month 0xF * 2 ^ 20 + (maskBits w.monthDay 0x3F * 2 ^ 14 +
        (maskBits w.weekDay 0x7 * 2 ^ 11 + (maskBits w.hour 0x1F * 2 ^ 6 +
          maskBits w.minute 0x3F))))) := by
  have hminute := maskBits_lt w.minute 0x3F
  have hhour := maskBits_lt w.hour 0x1F
  have hweekDay := maskBits_lt w.weekDay 0x7
  have hmonthDay := maskBits_lt w.monthDay 0x3F
  have hmonth := maskBits_lt w.month 0xF
  have hyear := maskBits_lt (w.year.tmod 100) 0x1F
  unfold GetPackedTime
  rw [Nat.or_comm, Nat.or_assoc, Nat.or_assoc, Nat.or_assoc, Nat.or_assoc,
    @shiftLeft_or _ (maskBits w.minute 0x3F) 6 (by omega),
    @shiftLeft_or _ _ 11 (by omega), @shiftLeft_or _ _ 14 (by omega),
    @shiftLeft_or _ _ 20 (by omega), @shiftLeft_or _ _ 24 (by omega),
    @shiftLeft_or _ _ 29 (by omega)]

theorem readField_eq {packedTime shift width mask : Nat} (hmask : mask + 1 = 2 ^ width) :
    readField packedTime shift mask =
      if packedTime / 2 ^ shift % (mask + 1) = mask then -1
      else ((packedTime / 2 ^ shift % (mask + 1) : Nat) : Int) := by
  obtain rfl : mask = 2 ^ width - 1 := by omega
  unfold readField
  rw [Nat.shiftRight_eq_div_pow, Nat.and_two_pow_sub_one_eq_mod, hmask]

theorem readField_of_admits {packedTime shift width mask : Nat} {bound value : Int}
    (h : Admits bound value) (hmask : mask + 1 = 2 ^ width) (hbound : bound ≤ mask)
    (hbits : packedTime / 2 ^ shift % (mask + 1) = maskBits value mask) :
    readField packedTime shift mask = value := by
  rw [readField_eq hmask, hbits]
  rcases h with rfl | ⟨h0, hlt⟩
  · rw [maskBits_unset, if_pos rfl]
  · have hvalue := @maskBits_of_lt value mask h0 (by omega)
    rw [if_neg (by omega), hvalue]

theorem GetPackedTime_bits (w : WowTime) :
    w.GetPackedTime / 2 ^ 24 % 32 = maskBits (w.year.tmod 100) 0x1F ∧
      w.GetPackedTime / 2 ^ 20 % 16 = maskBits w.month 0xF ∧
      w.GetPackedTime / 2 ^ 14 % 64 = maskBits w.monthDay 0x3F ∧
      w.GetPackedTime / 2 ^ 11 % 8 = maskBits w.weekDay 0x7 ∧
      w.GetPackedTime / 2 ^ 6 % 32 = maskBits w.hour 0x1F ∧
      w.GetPackedTime / 2 ^ 0 % 64 = maskBits w.minute 0x3F ∧
      w.GetPackedTime / 2 ^ 29 % 4 = maskBits w.flags 0x3 := by
  have hyear := maskBits_lt (w.year.tmod 100) 0x1F
  have hmonth := maskBits_lt w.month 0xF
  have hmonthDay := maskBits_lt w.monthDay 0x3F
  have hweekDay := maskBits_lt w.weekDay 0x7
  have hhour := maskBits_lt w.hour 0x1F
  have hminute := maskBits_lt w.minute 0x3F
  have hflags := maskBits_lt w.flags 0x3
  rw [GetPackedTime_eq]
  omega

section RoundTrip

variable {w : WowTime}

theorem tmod_year (h : Admits 32 w.year) : w.year.tmod 100 = w.year := by
  rcases h with h | ⟨h0, hlt⟩
  · rw [h]
    decide
  · rw [Int.tmod_eq_emod_of_nonneg h0]
    omega

theorem readField_year (h : Admits 32 w.year) :
    readField w.GetPackedTime 24 0x1F = if w.year = 31 then -1 else w.year := by
  have hbits := (GetPackedTime_bits w).1
  rw [tmod_year h] at hbits
  split
  · next hyear =>
    rw [hyear] at hbits
    rw [@readField_eq _ 24 5 31 rfl, hbits]
    decide
  · next hyear =>
    have hadmits : Admits 31 w.year := h.imp_right fun hset => ⟨hset.1, by omega⟩
    exact readField_of_admits hadmits (@rfl _ (2 ^ 5)) (by decide) hbits

/-- **A packed time is read as it was packed**, but for the year 31, which is read as unset. -/
theorem SetPackedTime_GetPackedTime (h : w.InRange) :
    SetPackedTime w.GetPackedTime = { w with year := if w.year = 31 then -1 else w.year } := by
  obtain ⟨-, hmonth, hmonthDay, hweekDay, hhour, hminute, hflags⟩ := GetPackedTime_bits w
  ext
  · exact readField_year h.year
  · exact readField_of_admits h.month (@rfl _ (2 ^ 4)) (by decide) hmonth
  · exact readField_of_admits h.monthDay (@rfl _ (2 ^ 6)) (by decide) hmonthDay
  · exact readField_of_admits h.weekDay (@rfl _ (2 ^ 3)) (by decide) hweekDay
  · exact readField_of_admits h.hour (@rfl _ (2 ^ 5)) (by decide) hhour
  · exact readField_of_admits h.minute (@rfl _ (2 ^ 6)) (by decide) hminute
  · exact readField_of_admits h.flags (@rfl _ (2 ^ 2)) (by decide) hflags

theorem roundTrip_iff (h : w.InRange) : SetPackedTime w.GetPackedTime = w ↔ w.year ≠ 31 := by
  rw [SetPackedTime_GetPackedTime h]
  constructor
  · grind
  · intro hyear
    rw [if_neg hyear]

end RoundTrip

end WowTime

end EGServer.Holidays
