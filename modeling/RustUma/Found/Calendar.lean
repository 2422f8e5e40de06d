import Mathlib.Algebra.BigOperators.Intervals
import Mathlib.Algebra.Order.BigOperators.Group.Finset
import Mathlib.Tactic.IntervalCases

/-!
# The proleptic Gregorian calendar

A date is a year, a month from 1 to 12 and a day from 1 on. `dayNumber epoch` counts the days from
the first of January of the year `epoch`, year by year and month by month.
-/

namespace RustUma.Calendar

def IsLeap (year : ℕ) : Prop := year % 4 = 0 ∧ (year % 100 ≠ 0 ∨ year % 400 = 0)

instance : DecidablePred IsLeap := fun _ => instDecidableAnd

def yearLength (year : ℕ) : ℕ := if IsLeap year then 366 else 365

def monthLength (year : ℕ) : ℕ → ℕ
  | 2 => if IsLeap year then 29 else 28
  | 4 | 6 | 9 | 11 => 30
  | _ => 31

structure Valid (year month day : ℕ) : Prop where
  month_pos : 1 ≤ month
  month_le : month ≤ 12
  day_pos : 1 ≤ day
  day_le : day ≤ monthLength year month

def monthStart (year month : ℕ) : ℕ := ∑ k ∈ Finset.Ico 1 month, monthLength year k

def dayNumber (epoch year month day : ℕ) : ℕ :=
  ∑ k ∈ Finset.Ico epoch year, yearLength k + monthStart year month + (day - 1)

variable {epoch year year' month month' day day' : ℕ}

def yearStart (year : ℕ) : ℕ :=
  365 * year + (year + 3) / 4 - (year + 99) / 100 + (year + 399) / 400

lemma yearStart_succ (year : ℕ) : yearStart (year + 1) = yearStart year + yearLength year := by
  have hfour : (year + 1 + 3) / 4 = (year + 3) / 4 + if year % 4 = 0 then 1 else 0 := by
    split_ifs <;> omega
  have hhundred : (year + 1 + 99) / 100 = (year + 99) / 100 + if year % 100 = 0 then 1 else 0 := by
    split_ifs <;> omega
  have hfourHundred : (year + 1 + 399) / 400 =
      (year + 399) / 400 + if year % 400 = 0 then 1 else 0 := by
    split_ifs <;> omega
  have hle : (year + 99) / 100 ≤ 365 * year + (year + 3) / 4 := by omega
  have hdvd : year % 400 = 0 → year % 100 = 0 := by omega
  have hdvd' : year % 100 = 0 → year % 4 = 0 := by omega
  unfold yearStart yearLength IsLeap
  grind

lemma sum_yearLength (h : epoch ≤ year) :
    yearStart epoch + ∑ k ∈ Finset.Ico epoch year, yearLength k = yearStart year := by
  induction year, h using Nat.le_induction with
  | base => simp
  | succ year h ih => rw [Finset.sum_Ico_succ_top h, ← add_assoc, ih, yearStart_succ]

lemma yearStart_mono : Monotone yearStart :=
  monotone_nat_of_le_succ fun year => yearStart_succ year ▸ Nat.le_add_right ..

lemma monthStart_eq (year month : ℕ) (h : month ≤ 13) : monthStart year month =
    [0, 0, 31, 59, 90, 120, 151, 181, 212, 243, 273, 304, 334, 365].getD month 0 +
      if 2 < month ∧ IsLeap year then 1 else 0 := by
  unfold monthStart
  by_cases hleap : IsLeap year <;> interval_cases month <;>
    simp [Finset.sum_Ico_succ_top, monthLength, hleap]

lemma monthStart_thirteen (year : ℕ) : monthStart year 13 = yearLength year := by
  rw [monthStart_eq year 13 le_rfl, yearLength]
  split_ifs <;> simp_all

lemma monthStart_mono (year : ℕ) : Monotone (monthStart year) := fun _ _ h =>
  Finset.sum_le_sum_of_subset (Finset.Ico_subset_Ico_right h)

namespace Valid

variable (h : Valid year month day)

include h

lemma lt_monthStart (hlt : month < month') :
    monthStart year month + (day - 1) < monthStart year month' := by
  have hnext : monthStart year month + monthLength year month = monthStart year (month + 1) :=
    (Finset.sum_Ico_succ_top h.month_pos _).symm
  have hle : monthStart year (month + 1) ≤ monthStart year month' := monthStart_mono year hlt
  have hday := h.day_le
  have hpos := h.day_pos
  omega

lemma dayNumber_lt (hepoch : epoch ≤ year) (hyear : year < year') :
    dayNumber epoch year month day < ∑ k ∈ Finset.Ico epoch year', yearLength k := by
  have hmonth := h.lt_monthStart (Nat.lt_succ_of_le h.month_le)
  have hnext : ∑ k ∈ Finset.Ico epoch (year + 1), yearLength k =
      ∑ k ∈ Finset.Ico epoch year, yearLength k + yearLength year :=
    Finset.sum_Ico_succ_top hepoch _
  have hle : ∑ k ∈ Finset.Ico epoch (year + 1), yearLength k ≤
      ∑ k ∈ Finset.Ico epoch year', yearLength k :=
    Finset.sum_le_sum_of_subset (Finset.Ico_subset_Ico_right hyear)
  rw [monthStart_thirteen] at hmonth
  unfold dayNumber
  omega

lemma dayNumber_eq {n : ℕ}
    (hn : yearStart year + monthStart year month + (day - 1) = yearStart epoch + n) :
    epoch ≤ year ∧ dayNumber epoch year month day = n := by
  have hepoch : epoch ≤ year := by
    by_contra hlt
    have hmonth := h.lt_monthStart (Nat.lt_succ_of_le h.month_le)
    have hle : yearStart (year + 1) ≤ yearStart epoch := yearStart_mono (not_le.mp hlt)
    rw [monthStart_thirteen] at hmonth
    rw [yearStart_succ] at hle
    omega
  have hsum := sum_yearLength hepoch
  refine ⟨hepoch, ?_⟩
  unfold dayNumber
  omega

lemma dayNumber_lt_dayNumber (h' : Valid year' month' day') (hepoch : epoch ≤ year)
    (hlt : year < year' ∨ year = year' ∧ (month < month' ∨ month = month' ∧ day < day')) :
    dayNumber epoch year month day < dayNumber epoch year' month' day' := by
  rcases hlt with hyear | ⟨rfl, hmonth | ⟨rfl, hday⟩⟩
  · have hnumber := h.dayNumber_lt hepoch hyear
    unfold dayNumber at hnumber ⊢
    omega
  · have hnumber := h.lt_monthStart hmonth
    unfold dayNumber
    omega
  · have hpos := h.day_pos
    unfold dayNumber
    omega

lemma dayNumber_lt_iff (h' : Valid year' month' day') (hepoch : epoch ≤ year)
    (hepoch' : epoch ≤ year') : dayNumber epoch year month day < dayNumber epoch year' month' day' ↔
      year < year' ∨ year = year' ∧ (month < month' ∨ month = month' ∧ day < day') := by
  refine ⟨fun hlt => ?_, h.dayNumber_lt_dayNumber h' hepoch⟩
  by_contra hnot
  by_cases heq : year = year' ∧ month = month' ∧ day = day'
  · simp_all
  · exact lt_asymm hlt (h'.dayNumber_lt_dayNumber h hepoch' (by omega))

end Valid

end RustUma.Calendar
