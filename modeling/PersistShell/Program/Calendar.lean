import Mathlib.Algebra.GroupWithZero.Nat
import Mathlib.Algebra.Group.Nat.Defs
import Mathlib.Logic.Function.Iterate
import Mathlib.Order.Monotone.Basic
import Mathlib.Tactic.SplitIfs

/-! The proleptic Gregorian calendar, day after day, and the number of days before a year. -/

namespace Gregorian

/-- Every fourth year, and of the centuries every fourth one. -/
def Leap (year : Nat) : Prop := 4 ∣ year ∧ (100 ∣ year → 400 ∣ year)

instance : DecidablePred Leap := fun _ => inferInstanceAs (Decidable (_ ∧ (_ → _)))

def monthLength (year month : Nat) : Nat :=
  if month = 2 then if Leap year then 29 else 28
  else if month = 4 ∨ month = 6 ∨ month = 9 ∨ month = 11 then 30
  else 31

def yearLength (year : Nat) : Nat := if Leap year then 366 else 365

structure Date where
  year : Nat
  month : Nat
  day : Nat
  deriving DecidableEq, Repr

namespace Date

structure Valid (d : Date) : Prop where
  month : 1 ≤ d.month ∧ d.month ≤ 12
  day : 1 ≤ d.day ∧ d.day ≤ monthLength d.year d.month

/-- The day after. -/
def next (d : Date) : Date :=
  if d.day < monthLength d.year d.month then { d with day := d.day + 1 }
  else if d.month < 12 then { year := d.year, month := d.month + 1, day := 1 }
  else { year := d.year + 1, month := 1, day := 1 }

def Before (d e : Date) : Prop :=
  d.year < e.year ∨ d.year = e.year ∧ (d.month < e.month ∨ d.month = e.month ∧ d.day < e.day)

theorem Before.trans {d e f : Date} (h : d.Before e) (h' : e.Before f) : d.Before f := by
  unfold Before at *
  omega

end Date

def epoch : Date := { year := 1970, month := 1, day := 1 }

/-- The date that is `days` days after the epoch. -/
def civil (days : Nat) : Date := Date.next^[days] epoch

section months

theorem monthLength_pos (year month : Nat) : 1 ≤ monthLength year month := by
  unfold monthLength
  split_ifs <;> omega

theorem Date.Valid.next {d : Date} (h : d.Valid) : d.next.Valid := by
  have hmonth := h.month
  have hday := h.day
  unfold Date.next
  split_ifs with hlast hyear
  · exact ⟨hmonth, Nat.le_add_left 1 _, hlast⟩
  · exact ⟨⟨Nat.le_add_left 1 _, hyear⟩, le_rfl, monthLength_pos _ _⟩
  · exact ⟨⟨le_rfl, Nat.le_add_left 1 11⟩, le_rfl, monthLength_pos _ _⟩

theorem Date.before_next {d : Date} (h : d.Valid) : d.Before d.next := by
  have hmonth := h.month
  have hday := h.day
  unfold Date.next Date.Before
  split_ifs <;> dsimp only <;> omega

theorem civil_valid (days : Nat) : (civil days).Valid := by
  induction days with
  | zero => exact ⟨by decide, by decide⟩
  | succ days ih =>
    rw [civil, Function.iterate_succ_apply']
    exact ih.next

theorem civil_before {m n : Nat} (h : m < n) : (civil m).Before (civil n) := by
  induction n, h using Nat.le_induction with
  | base =>
    have hnext := Date.before_next (civil_valid m)
    rw [civil, civil, Function.iterate_succ_apply']
    exact hnext
  | succ n _ ih =>
    have hnext := Date.before_next (civil_valid n)
    rw [civil, civil, Function.iterate_succ_apply']
    exact ih.trans hnext

/-- Within a month only the day changes. -/
theorem next_iterate_day {year month k : Nat} (h : k < monthLength year month) :
    Date.next^[k] ⟨year, month, 1⟩ = ⟨year, month, k + 1⟩ := by
  induction k with
  | zero => rfl
  | succ k ih =>
    rw [Function.iterate_succ_apply', ih (by omega), Date.next, if_pos h]

theorem next_iterate_month {year month : Nat} (h : month < 12) :
    Date.next^[monthLength year month] ⟨year, month, 1⟩ = ⟨year, month + 1, 1⟩ := by
  have hpos := monthLength_pos year month
  have hlast : monthLength year month - 1 + 1 = monthLength year month := by omega
  rw [← hlast, Function.iterate_succ_apply', next_iterate_day (by omega), Date.next, if_neg, if_pos h]
  dsimp only
  omega

theorem next_iterate_december (year : Nat) :
    Date.next^[monthLength year 12] ⟨year, 12, 1⟩ = ⟨year + 1, 1, 1⟩ := by
  have hlast : monthLength year 12 = 30 + 1 := rfl
  rw [hlast, Function.iterate_succ_apply', next_iterate_day (by rw [hlast]; omega), Date.next,
    if_neg, if_neg]
  · exact lt_irrefl 12
  · rw [hlast]
    exact lt_irrefl _

end months

section years

/-- The days of the months before a month. -/
def daysBeforeMonth (year month : Nat) : Nat :=
  ((List.range (month - 1)).map fun i => monthLength year (i + 1)).sum

theorem daysBeforeMonth_succ {year month : Nat} (h : 1 ≤ month) :
    daysBeforeMonth year (month + 1) = daysBeforeMonth year month + monthLength year month := by
  have hmonth : month + 1 - 1 = month - 1 + 1 := by omega
  rw [daysBeforeMonth, hmonth, List.range_succ, List.map_append, List.sum_append,
    ← daysBeforeMonth]
  have hsame : month - 1 + 1 = month := by omega
  simp only [List.map_cons, List.map_nil, List.sum_cons, List.sum_nil, hsame, Nat.add_zero]

theorem next_iterate_daysBeforeMonth {year month : Nat} (hpos : 1 ≤ month) (h : month ≤ 12) :
    Date.next^[daysBeforeMonth year month] ⟨year, 1, 1⟩ = ⟨year, month, 1⟩ := by
  induction month, hpos using Nat.le_induction with
  | base => rfl
  | succ month hpos ih =>
    rw [daysBeforeMonth_succ hpos, Nat.add_comm, Function.iterate_add_apply, ih (by omega),
      next_iterate_month (by omega)]

theorem daysBeforeMonth_year (year : Nat) :
    daysBeforeMonth year 12 + monthLength year 12 = yearLength year := by
  by_cases h : Leap year
  · simp [daysBeforeMonth, monthLength, yearLength, List.range_succ, h]
  · simp [daysBeforeMonth, monthLength, yearLength, List.range_succ, h]

theorem next_iterate_year (year : Nat) :
    Date.next^[yearLength year] ⟨year, 1, 1⟩ = ⟨year + 1, 1, 1⟩ := by
  rw [← daysBeforeMonth_year, Nat.add_comm, Function.iterate_add_apply,
    next_iterate_daysBeforeMonth (by decide) (by decide), next_iterate_december]

/-- The days of the years before a year, from the year zero on. -/
def daysBeforeYear (year : Nat) : Nat :=
  365 * year + (year + 3) / 4 - (year + 99) / 100 + (year + 399) / 400

theorem daysBeforeYear_succ (year : Nat) :
    daysBeforeYear (year + 1) = daysBeforeYear year + yearLength year := by
  unfold daysBeforeYear yearLength
  by_cases h : Leap year
  · rw [if_pos h]
    unfold Leap at h
    omega
  · rw [if_neg h]
    unfold Leap at h
    omega

theorem daysBeforeYear_mono : Monotone daysBeforeYear :=
  monotone_nat_of_le_succ fun year => by rw [daysBeforeYear_succ]; exact Nat.le_add_right _ _

theorem civil_year {year : Nat} (h : 1970 ≤ year) :
    civil (daysBeforeYear year - daysBeforeYear 1970) = ⟨year, 1, 1⟩ := by
  induction year, h using Nat.le_induction with
  | base => rw [Nat.sub_self]; rfl
  | succ year hyear ih =>
    have hmono : daysBeforeYear 1970 ≤ daysBeforeYear year := daysBeforeYear_mono hyear
    have hdays : daysBeforeYear (year + 1) - daysBeforeYear 1970 =
        yearLength year + (daysBeforeYear year - daysBeforeYear 1970) := by
      rw [daysBeforeYear_succ]
      omega
    rw [hdays, civil, Function.iterate_add_apply, ← civil, ih, next_iterate_year]

theorem year_of_civil {days year : Nat} (hyear : 1970 ≤ year)
    (h : days < daysBeforeYear year - daysBeforeYear 1970) : (civil days).year < year := by
  have hbefore := civil_before h
  have hvalid := civil_valid days
  have hmonth := hvalid.month
  have hday := hvalid.day
  rw [civil_year hyear] at hbefore
  unfold Date.Before at hbefore
  dsimp only at hbefore
  omega

end years

end Gregorian
