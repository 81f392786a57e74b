import Mathlib.Algebra.BigOperators.Group.List.Basic
import Mathlib.Algebra.GroupWithZero.Nat
import Mathlib.Algebra.Order.BigOperators.Group.List
import Mathlib.Data.List.Infix

/-!
# Days, months and years

Dates of the proleptic Gregorian calendar, found by counting lengths off a number of days.
-/

namespace Calendar

/-! ## Counting off -/

/-- The index of the length in which `n` falls, when they are counted off one after another,
and what is left of `n` there. -/
def count : List Nat → Nat → Nat × Nat
  | [], n => (0, n)
  | d :: ds, n =>
    if n < d then (0, n) else ((count ds (n - d)).1 + 1, (count ds (n - d)).2)

theorem count_lt {ds : List Nat} : ∀ {n : Nat}, n < ds.sum →
    ∃ d, ds[(count ds n).1]? = some d ∧ (count ds n).2 < d := by
  induction ds with
  | nil => exact fun h => absurd h (Nat.not_lt_zero _)
  | cons d ds ih =>
    intro n h
    rw [List.sum_cons] at h
    rw [count]
    split
    · rename_i hlt
      exact ⟨d, rfl, hlt⟩
    · exact ih (by omega)

theorem count_sum (ds : List Nat) :
    ∀ n, (ds.take (count ds n).1).sum + (count ds n).2 = n := by
  induction ds with
  | nil => exact fun n => Nat.zero_add n
  | cons d ds ih =>
    intro n
    rw [count]
    split
    · exact Nat.zero_add n
    · have hrest := ih (n - d)
      rw [List.take_succ_cons, List.sum_cons]
      omega

theorem count_lt_length {ds : List Nat} {n : Nat} (h : n < ds.sum) :
    (count ds n).1 < ds.length := by
  obtain ⟨_, hd, _⟩ := count_lt h
  exact (List.getElem?_eq_some_iff.mp hd).1

/-! ## Dates -/

def leap (year : Nat) : Bool :=
  year % 4 == 0 && (year % 100 != 0 || year % 400 == 0)

def yearLength (year : Nat) : Nat := if leap year then 366 else 365

def monthLengths (year : Nat) : List Nat :=
  [31, if leap year then 29 else 28, 31, 30, 31, 30, 31, 31, 30, 31, 30, 31]

/-- The lengths of the first `n` years. -/
def yearLengths (epoch n : Nat) : List Nat := (List.range n).map fun i => yearLength (epoch + i)

theorem sum_monthLengths (year : Nat) : (monthLengths year).sum = yearLength year := by
  unfold monthLengths yearLength
  cases leap year <;> rfl

theorem monthLengths_le {year d : Nat} (h : d ∈ monthLengths year) : d ≤ 31 := by
  unfold monthLengths at h
  cases hl : leap year <;> simp only [hl] at h <;> revert h d <;> decide

theorem le_sum_yearLengths (epoch : Nat) : ∀ n, 365 * n ≤ (yearLengths epoch n).sum
  | 0 => Nat.le_refl 0
  | n + 1 => by
    have hyear : 365 ≤ yearLength (epoch + n) := by
      unfold yearLength
      split <;> decide
    have hrest := le_sum_yearLengths epoch n
    simp only [yearLengths, List.range_succ, List.map_append, List.map_cons, List.map_nil,
      List.sum_append, List.sum_singleton] at hrest ⊢
    omega

/-- Day 0 of month 0 is the first of January. -/
structure Date where
  year : Nat
  month : Nat
  day : Nat
  deriving DecidableEq

/-- The date of a day, counted from the first one of the year `epoch`. -/
def civil (epoch days : Nat) : Date :=
  let (years, rest) := count (yearLengths epoch (days / 365 + 1)) days
  let (month, day) := count (monthLengths (epoch + years)) rest
  ⟨epoch + years, month, day⟩

/-- The day of a date. -/
def dayNumber (epoch : Nat) (date : Date) : Nat :=
  (yearLengths epoch (date.year - epoch)).sum +
    (((monthLengths date.year).take date.month).sum + date.day)

section
variable (epoch days : Nat)

theorem lt_sum_yearLengths : days < (yearLengths epoch (days / 365 + 1)).sum := by
  have h := le_sum_yearLengths epoch (days / 365 + 1)
  omega

theorem years_le : (count (yearLengths epoch (days / 365 + 1)) days).1 ≤ days / 365 := by
  have h := count_lt_length (lt_sum_yearLengths epoch days)
  rw [yearLengths, List.length_map, List.length_range] at h
  exact Nat.lt_succ_iff.mp h

theorem rest_lt : (count (yearLengths epoch (days / 365 + 1)) days).2 <
    (monthLengths (epoch + (count (yearLengths epoch (days / 365 + 1)) days).1)).sum := by
  obtain ⟨d, hd, hlt⟩ := count_lt (lt_sum_yearLengths epoch days)
  obtain ⟨hi, rfl⟩ := List.getElem?_eq_some_iff.mp hd
  rw [sum_monthLengths]
  simpa [yearLengths] using hlt

theorem civil_year_le : (civil epoch days).year ≤ epoch + days / 365 :=
  Nat.add_le_add_left (years_le epoch days) epoch

theorem civil_month_lt : (civil epoch days).month < 12 :=
  count_lt_length (rest_lt epoch days)

theorem civil_day_lt : (civil epoch days).day < 31 := by
  obtain ⟨d, hd, hlt⟩ := count_lt (rest_lt epoch days)
  exact Nat.lt_of_lt_of_le hlt (monthLengths_le (List.mem_of_getElem? hd))

/-- **The date of a day tells which day it is.** -/
theorem dayNumber_civil : dayNumber epoch (civil epoch days) = days := by
  have hyears := count_sum (yearLengths epoch (days / 365 + 1)) days
  have hmonths := count_sum (monthLengths (civil epoch days).year)
    (count (yearLengths epoch (days / 365 + 1)) days).2
  have htake : (yearLengths epoch (days / 365 + 1)).take
      (count (yearLengths epoch (days / 365 + 1)) days).1 =
        yearLengths epoch ((civil epoch days).year - epoch) := by
    have hle : (count (yearLengths epoch (days / 365 + 1)) days).1 ≤ days / 365 + 1 :=
      Nat.le_succ_of_le (years_le epoch days)
    have hyear : (civil epoch days).year - epoch =
        (count (yearLengths epoch (days / 365 + 1)) days).1 := Nat.add_sub_cancel_left ..
    generalize (count (yearLengths epoch (days / 365 + 1)) days).1 = years at hle hyear ⊢
    rw [hyear, yearLengths, yearLengths, ← List.map_take, List.take_range, Nat.min_eq_left hle]
  rw [htake] at hyears
  rw [dayNumber]
  calc _ = (yearLengths epoch ((civil epoch days).year - epoch)).sum +
        (count (yearLengths epoch (days / 365 + 1)) days).2 := congrArg _ hmonths
    _ = days := hyears

end

end Calendar
