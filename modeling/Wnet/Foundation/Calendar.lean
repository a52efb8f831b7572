import Mathlib.Algebra.BigOperators.Group.List.Basic
import Mathlib.Algebra.GroupWithZero.Nat
import Mathlib.Algebra.Order.Group.Int

/-!
# The Gregorian calendar

Days are counted from the first of January of the year 1, in both directions, and
belong to a year, a month and a day of the month. The count of a date is read off
the years and months before it; the date of a count is found by going through them.
-/

namespace Wnet.Foundation.Calendar

variable {year day : Int}

def IsLeap (year : Int) : Prop := year % 4 = 0 ∧ (year % 100 ≠ 0 ∨ year % 400 = 0)

instance (year : Int) : Decidable (IsLeap year) := inferInstanceAs (Decidable (_ ∧ _))

def yearLength (year : Int) : Nat := if IsLeap year then 366 else 365

/-- The lengths of the months of a year. -/
def monthLengths (year : Int) : List Nat :=
  [31, if IsLeap year then 29 else 28, 31, 30, 31, 30, 31, 31, 30, 31, 30, 31]

/-- The count of the first of January. -/
def daysBeforeYear (year : Int) : Int :=
  365 * (year - 1) + (year - 1) / 4 - (year - 1) / 100 + (year - 1) / 400

theorem sum_monthLengths (year : Int) : (monthLengths year).sum = yearLength year := by
  unfold monthLengths yearLength
  split_ifs <;> rfl

theorem daysBeforeYear_succ (year : Int) :
    daysBeforeYear (year + 1) = daysBeforeYear year + yearLength year := by
  unfold daysBeforeYear yearLength
  split_ifs with hleap
  · unfold IsLeap at hleap
    omega
  · unfold IsLeap at hleap
    omega

/-- The year of a day. The mean length of a year is off by less than a year. -/
def yearOf (day : Int) : Int :=
  let year := day * 400 / 146097 + 1
  if day < daysBeforeYear year then year - 1
  else if daysBeforeYear (year + 1) ≤ day then year + 1
  else year

theorem yearOf_spec (day : Int) :
    daysBeforeYear (yearOf day) ≤ day ∧ day < daysBeforeYear (yearOf day + 1) := by
  unfold yearOf daysBeforeYear
  dsimp only
  -- Whichever year is chosen, its bounds are linear in the quotients by 4, 100 and 400.
  split_ifs <;> omega

/-! ## Consecutive blocks -/

/-- The block that a position is in, and the position within it. -/
def locate : List Nat → Nat → Nat × Nat
  | [], position => (0, position)
  | length :: rest, position =>
      if position < length then (0, position)
      else ((locate rest (position - length)).1 + 1, (locate rest (position - length)).2)

theorem locate_spec {lengths : List Nat} {position : Nat} (hposition : position < lengths.sum) :
    ∃ length, lengths[(locate lengths position).1]? = some length ∧
      (locate lengths position).2 < length ∧
      (lengths.take (locate lengths position).1).sum + (locate lengths position).2 = position := by
  induction lengths generalizing position with
  | nil => simp at hposition
  | cons length rest ih =>
      rw [locate]
      split
      next hlt => exact ⟨length, rfl, hlt, by simp⟩
      next hge =>
        rw [List.sum_cons] at hposition
        obtain ⟨other, hother, hwithin, hsum⟩ := @ih (position - length) (by omega)
        refine ⟨other, by simpa using hother, hwithin, ?_⟩
        rw [List.take_succ_cons, List.sum_cons]
        omega

/-! ## Dates -/

/-- A year, a month from 0 and a day of the month from 1. -/
structure Date where
  year : Int
  month : Nat
  day : Nat
  deriving DecidableEq

/-- The place of a day in its year, from 0. -/
def dayOfYear (day : Int) : Nat := (day - daysBeforeYear (yearOf day)).toNat

def dateOf (day : Int) : Date :=
  let (month, dayOfMonth) := locate (monthLengths (yearOf day)) (dayOfYear day)
  ⟨yearOf day, month, dayOfMonth + 1⟩

/-- The count of a date. -/
def daysBefore (year : Int) (month : Nat) : Int :=
  daysBeforeYear year + ((monthLengths year).take month).sum

theorem dayOfYear_lt (day : Int) : dayOfYear day < yearLength (yearOf day) := by
  have hspec := yearOf_spec day
  rw [daysBeforeYear_succ] at hspec
  unfold dayOfYear
  omega

theorem daysBeforeYear_add_dayOfYear (day : Int) :
    daysBeforeYear (yearOf day) + dayOfYear day = day := by
  have hspec := yearOf_spec day
  unfold dayOfYear
  omega

/-- The date of a day leads back to the day. -/
theorem daysBefore_dateOf (day : Int) :
    daysBefore (dateOf day).year (dateOf day).month + ((dateOf day).day - 1) = day := by
  obtain ⟨-, -, -, hsum⟩ := locate_spec ((sum_monthLengths _).symm ▸ dayOfYear_lt day)
  have hday := daysBeforeYear_add_dayOfYear day
  simp only [dateOf, daysBefore]
  omega

theorem monthLengths_le {length : Nat} (hlength : length ∈ monthLengths year) : length ≤ 31 := by
  revert hlength
  unfold monthLengths
  split_ifs <;> revert length <;> decide

theorem dateOf_month_lt (day : Int) : (dateOf day).month < 12 := by
  obtain ⟨length, hlength, -⟩ := locate_spec ((sum_monthLengths _).symm ▸ dayOfYear_lt day)
  exact (List.getElem?_eq_some_iff.mp hlength).1

theorem dateOf_day (day : Int) : 1 ≤ (dateOf day).day ∧ (dateOf day).day ≤ 31 := by
  obtain ⟨length, hlength, hlt, -⟩ := locate_spec ((sum_monthLengths _).symm ▸ dayOfYear_lt day)
  have hle : length ≤ 31 := monthLengths_le (List.mem_of_getElem? hlength)
  exact ⟨Nat.succ_le_succ (Nat.zero_le _), Nat.le_trans hlt hle⟩

/-- The first of January of the year 1 is a Monday; Sunday is 0. -/
def weekday (day : Int) : Int := (day + 1) % 7

example : dateOf 719162 = ⟨1970, 0, 1⟩ ∧ weekday 719162 = 4 := by decide

end Wnet.Foundation.Calendar
