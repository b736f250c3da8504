import ControlPlane.Time.Calendar
import Mathlib.Algebra.Ring.Nat

/-!
# The calendar: days and dates

Every day has a date, which exists in the calendar (`Date.exists_ofDays`), and the days before the
date are those that it was found for (`Date.toDays_ofDays`).
-/

namespace ControlPlane.Date

/-! ## Years -/

/-- A year has 365 days, or 366. -/
theorem daysBeforeYear_succ (y : Int) :
    daysBeforeYear (y + 1) = daysBeforeYear y + if isLeapYear y then 366 else 365 := by
  unfold daysBeforeYear
  by_cases h : isLeapYear y
  · rw [if_pos h]
    simp only [isLeapYear, Bool.and_eq_true, Bool.or_eq_true, decide_eq_true_eq] at h
    omega
  · rw [if_neg h]
    simp only [isLeapYear, Bool.and_eq_true, Bool.or_eq_true, decide_eq_true_eq] at h
    omega

/-- A day lies in the year that it is found in. -/
theorem yearOf_spec (days : Int) :
    daysBeforeYear (yearOf days) ≤ days ∧ days < daysBeforeYear (yearOf days + 1) := by
  unfold yearOf
  dsimp only
  split
  · rename_i h
    rw [Int.sub_add_cancel]
    refine ⟨?_, h⟩
    unfold daysBeforeYear
    omega
  · rename_i h
    split
    · rename_i h'
      refine ⟨h', ?_⟩
      unfold daysBeforeYear
      omega
    · rename_i h'
      exact ⟨Int.not_lt.1 h, Int.not_le.1 h'⟩

theorem daysBeforeYear_mono {y z : Int} (h : y ≤ z) : daysBeforeYear y ≤ daysBeforeYear z := by
  unfold daysBeforeYear
  omega

/-! ## Months -/

/-- A day of a year lies in one of its months. -/
theorem monthAndDay_spec {lengths : List Nat} {days : Nat} (month : Nat) (h : days < lengths.sum) :
    ∃ i n, lengths[i]? = some n ∧ (lengths.take i).sum ≤ days ∧
      days < (lengths.take i).sum + n ∧
      monthAndDay lengths month days = (month + i, days - (lengths.take i).sum + 1) := by
  induction lengths generalizing month days with
  | nil => simp at h
  | cons n rest ih =>
    rw [List.sum_cons] at h
    by_cases hd : days < n
    · refine ⟨0, n, rfl, Nat.zero_le _, ?_, ?_⟩
      · simpa using hd
      · rw [monthAndDay, if_pos hd]
        rfl
    · obtain ⟨i, k, hk, hle, hlt, he⟩ := ih (month + 1) (show days - n < rest.sum by omega)
      have hsum : ((n :: rest).take (i + 1)).sum = n + (rest.take i).sum := by
        rw [List.take_succ_cons, List.sum_cons]
      refine ⟨i + 1, k, hk, ?_, ?_, ?_⟩
      · rw [hsum]
        omega
      · rw [hsum]
        omega
      · rw [monthAndDay, if_neg hd, he, hsum, Nat.sub_sub]
        congr 1
        omega

theorem sum_monthLengths (leap : Bool) :
    (monthLengths leap).sum = if leap then 366 else 365 := by
  cases leap <;> rfl

theorem monthLengths_le {leap : Bool} {n : Nat} (h : n ∈ monthLengths leap) : n ≤ 31 := by
  revert n
  cases leap <;> decide

/-! ## Dates -/

/-- The month of a day in its year, and the day of the month. -/
theorem ofDays_spec (days : Int) : ∃ i n, (monthLengths (isLeapYear (yearOf days)))[i]? = some n ∧
    (ofDays days).year = yearOf days ∧ (ofDays days).month = i + 1 ∧
    1 ≤ (ofDays days).day ∧ (ofDays days).day ≤ n ∧
    daysBeforeYear (yearOf days) + ((monthLengths (isLeapYear (yearOf days))).take i).sum +
      (ofDays days).day - 1 = days := by
  obtain ⟨hl, hu⟩ := yearOf_spec days
  rw [daysBeforeYear_succ] at hu
  have hlt : (days - daysBeforeYear (yearOf days)).toNat <
      (monthLengths (isLeapYear (yearOf days))).sum := by
    rw [sum_monthLengths]
    split at hu <;> simp only [*, if_true, if_false, Bool.false_eq_true] <;> omega
  obtain ⟨i, n, hn, hle, hlt, he⟩ := monthAndDay_spec 1 hlt
  refine ⟨i, n, hn, rfl, ?_, ?_, ?_, ?_⟩
  all_goals
    simp only [ofDays, he]
    omega

/-- The date of a day exists in the calendar. -/
theorem exists_ofDays (days : Int) : (ofDays days).exists? = true := by
  obtain ⟨i, n, hn, hy, hm, h1, hd, -⟩ := ofDays_spec days
  unfold exists?
  rw [hy, hm, Nat.add_sub_cancel, hn]
  simp only [Bool.and_eq_true, decide_eq_true_eq]
  omega

/-- The days before the date of a day are the ones that the date was found for. -/
theorem toDays_ofDays (days : Int) : (ofDays days).toDays = days := by
  obtain ⟨i, n, hn, hy, hm, h1, hd, he⟩ := ofDays_spec days
  unfold toDays
  dsimp only
  rw [hy, hm, Nat.add_sub_cancel, ← List.sum_eq_foldl_nat]
  exact he

theorem month_ofDays_lt (days : Int) : (ofDays days).month < 100 := by
  obtain ⟨i, n, hn, -, hm, -⟩ := ofDays_spec days
  obtain ⟨hi, -⟩ := List.getElem?_eq_some_iff.1 hn
  have : (monthLengths (isLeapYear (yearOf days))).length = 12 := rfl
  omega

theorem day_ofDays_lt (days : Int) : (ofDays days).day < 100 := by
  obtain ⟨i, n, hn, -, -, -, hd, -⟩ := ofDays_spec days
  have := monthLengths_le (List.mem_of_getElem? hn)
  omega

/-- Days before the first and after the last day of some years are in no year between. -/
theorem year_ofDays_bounds (days first beyond : Int) (hl : daysBeforeYear first ≤ days)
    (hu : days < daysBeforeYear beyond) :
    first ≤ (ofDays days).year ∧ (ofDays days).year < beyond := by
  obtain ⟨hle, hlt⟩ := yearOf_spec days
  show first ≤ yearOf days ∧ yearOf days < beyond
  constructor
  · refine Int.not_lt.1 fun h => ?_
    have := daysBeforeYear_mono (y := yearOf days + 1) (z := first) (by omega)
    omega
  · refine Int.not_le.1 fun h => ?_
    have := daysBeforeYear_mono (y := beyond) (z := yearOf days) (by omega)
    omega

end ControlPlane.Date
