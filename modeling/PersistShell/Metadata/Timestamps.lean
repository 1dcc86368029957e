import PersistShell.Program.Calendar
import PersistShell.Program.Decimal

/-! The timestamps of the metadata database: seconds since the epoch as a text that is compared
as a text. -/

namespace PersistShell

/-- `year % 4 == 0 && year % 100 != 0 || year % 400 == 0`. -/
def isLeap (year : Nat) : Bool := (year % 4 = 0 && year % 100 ≠ 0) || year % 400 = 0

def daysInYear (year : Nat) : Nat := if isLeap year then 366 else 365

theorem daysInYear_pos (year : Nat) : 0 < daysInYear year := by
  unfold daysInYear
  split <;> decide

/-- The loop over the years: the year that is reached, and the days left in it. -/
def yearLoop (y remaining : Nat) : Nat × Nat :=
  if remaining < daysInYear y then (y, remaining)
  else yearLoop (y + 1) (remaining - daysInYear y)
termination_by remaining
decreasing_by
  have := daysInYear_pos y
  omega

def monthDays (year : Nat) : List Nat :=
  if isLeap year then [31, 29, 31, 30, 31, 30, 31, 31, 30, 31, 30, 31]
  else [31, 28, 31, 30, 31, 30, 31, 31, 30, 31, 30, 31]

/-- The loop over the months, from the month behind `i` on: the month that is found or 0, and
the days left in it. -/
def monthLoop : List Nat → Nat → Nat → Nat × Nat
  | [], _, remaining => (0, remaining)
  | md :: rest, i, remaining =>
    if remaining < md then (i + 1, remaining) else monthLoop rest (i + 1) (remaining - md)

/-- The date of a day since the epoch, with the twelfth month where none is found. -/
def dateOfDays (days : Nat) : Gregorian.Date :=
  let (y, remaining) := yearLoop 1970 days
  let (m, remaining) := monthLoop (monthDays y) 0 remaining
  { year := y, month := if m = 0 then 12 else m, day := remaining + 1 }

def formatIso (secs : Nat) : String :=
  let date := dateOfDays (secs / 86400)
  let timeSecs := secs % 86400
  let hours := timeSecs / 3600
  let minutes := timeSecs % 3600 / 60
  let seconds := timeSecs % 60
  String.ofList (Decimal.padded 4 date.year ++ '-' :: Decimal.padded 2 date.month ++
    '-' :: Decimal.padded 2 date.day ++ 'T' :: Decimal.padded 2 hours ++
    ':' :: Decimal.padded 2 minutes ++ ':' :: Decimal.padded 2 seconds ++ ['Z'])

section calendar

open Gregorian

theorem isLeap_iff (year : Nat) : isLeap year = true ↔ Leap year := by
  unfold isLeap Leap
  simp only [Bool.or_eq_true, Bool.and_eq_true, decide_eq_true_eq]
  omega

theorem daysInYear_eq (year : Nat) : daysInYear year = yearLength year := by
  unfold daysInYear yearLength
  simp only [isLeap_iff]

theorem monthDays_eq (year : Nat) :
    monthDays year = (List.range 12).map fun i => monthLength year (i + 1) := by
  unfold monthDays
  simp only [isLeap_iff]
  by_cases h : Leap year
  · simp [h, List.range_succ, monthLength]
  · simp [h, List.range_succ, monthLength]

/-- A round of the loop takes a year off, and leaves the day where it is. -/
theorem yearLoop_spec (y remaining : Nat) :
    (yearLoop y remaining).2 < yearLength (yearLoop y remaining).1 ∧
      Date.next^[(yearLoop y remaining).2] ⟨(yearLoop y remaining).1, 1, 1⟩ =
        Date.next^[remaining] ⟨y, 1, 1⟩ := by
  induction y, remaining using yearLoop.induct with
  | case1 y remaining h =>
    rw [yearLoop, if_pos h, ← daysInYear_eq]
    exact ⟨h, rfl⟩
  | case2 y remaining h ih =>
    have hsplit : remaining = remaining - yearLength y + yearLength y := by
      rw [daysInYear_eq] at h
      omega
    rw [yearLoop, if_neg h]
    refine ⟨ih.1, ih.2.trans ?_⟩
    conv_rhs => rw [hsplit, Function.iterate_add_apply, next_iterate_year]
    rw [daysInYear_eq]

/-- The months that are left are enough for the days that are left. -/
theorem monthLoop_spec (year i remaining : Nat) (h : i ≤ 12)
    (hdays : remaining < yearLength year - daysBeforeMonth year (i + 1)) :
    let found := monthLoop ((monthDays year).drop i) i remaining
    1 ≤ found.1 ∧ found.1 ≤ 12 ∧ found.2 < monthLength year found.1 ∧
      daysBeforeMonth year found.1 + found.2 = daysBeforeMonth year (i + 1) + remaining := by
  induction hleft : 12 - i generalizing i remaining with
  | zero =>
    have hlast : i = 12 := by omega
    have hyear := daysBeforeMonth_year year
    rw [hlast, daysBeforeMonth_succ (by decide)] at hdays
    omega
  | succ left ih =>
    have hlt : i < (monthDays year).length := by
      rw [monthDays_eq, List.length_map, List.length_range]
      omega
    have hmonth : (monthDays year)[i] = monthLength year (i + 1) := by
      simp only [monthDays_eq, List.getElem_map, List.getElem_range]
    have hsucc := @daysBeforeMonth_succ year _ (Nat.le_add_left 1 i)
    rw [List.drop_eq_getElem_cons hlt, hmonth, monthLoop]
    split
    · exact ⟨Nat.le_add_left 1 i, by dsimp only; omega, by assumption, rfl⟩
    · obtain ⟨hpos, hle, hday, hsame⟩ :=
        ih (i + 1) (remaining - monthLength year (i + 1)) (by omega) (by omega) (by omega)
      exact ⟨hpos, hle, hday, by omega⟩

/-- The search finds the month of the day. -/
theorem month_found (days : Nat) :
    let (y, remaining) := yearLoop 1970 days
    let (m, left) := monthLoop (monthDays y) 0 remaining
    1 ≤ m ∧ m ≤ 12 ∧ 1 ≤ left + 1 ∧ left + 1 ≤ monthLength y m := by
  obtain ⟨hyear, -⟩ := yearLoop_spec 1970 days
  obtain ⟨hpos, hle, hday, -⟩ := monthLoop_spec (yearLoop 1970 days).1 0 _ (by decide)
    (by simpa [daysBeforeMonth] using hyear)
  exact ⟨hpos, hle, Nat.le_add_left 1 _, hday⟩

/-- The loops find the date of the calendar. -/
theorem dateOfDays_eq (days : Nat) : dateOfDays days = civil days := by
  obtain ⟨hyear, hsame⟩ := yearLoop_spec 1970 days
  obtain ⟨hpos, hle, hday, hdays⟩ := monthLoop_spec (yearLoop 1970 days).1 0 _ (by decide)
    (by simpa [daysBeforeMonth] using hyear)
  rw [List.drop_zero] at hpos hle hday hdays
  have hzero : daysBeforeMonth (yearLoop 1970 days).1 (0 + 1) = 0 := rfl
  rw [hzero, Nat.zero_add] at hdays
  rw [civil, epoch, ← hsame, ← hdays, Nat.add_comm, Function.iterate_add_apply,
    next_iterate_daysBeforeMonth hpos hle, next_iterate_day hday]
  unfold dateOfDays
  dsimp only
  rw [if_neg (by omega)]

end calendar

section texts

open Gregorian Decimal

/-- The time of a day in a text of twenty characters, each field with a width of its own. -/
def isoText (date : Date) (hours minutes seconds : Nat) : List Char :=
  digits 4 date.year ++ ('-' :: digits 2 date.month ++ ('-' :: digits 2 date.day ++
    ('T' :: digits 2 hours ++ (':' :: digits 2 minutes ++ (':' :: digits 2 seconds ++ ['Z'])))))

/-- What is written of a number of seconds. -/
def isoTextOf (secs : Nat) : List Char :=
  isoText (civil (secs / 86400)) (secs % 86400 / 3600) (secs % 3600 / 60) (secs % 60)

/-- The seconds before the year 10000. -/
def endOfIso : Nat := 253402300800

theorem year_le_of_lt {secs : Nat} (h : secs < endOfIso) : (civil (secs / 86400)).year ≤ 9999 := by
  have hdays : secs / 86400 < daysBeforeYear 10000 - daysBeforeYear 1970 := by
    have hend : daysBeforeYear 10000 - daysBeforeYear 1970 = 2932897 := by decide
    unfold endOfIso at h
    omega
  exact Nat.le_of_lt_succ (year_of_civil (by decide) hdays)

theorem monthLength_le (year month : Nat) : monthLength year month ≤ 31 := by
  unfold monthLength
  split_ifs <;> decide

theorem formatIso_eq {secs : Nat} (h : secs < endOfIso) :
    formatIso secs = String.ofList (isoTextOf secs) := by
  have hyear := year_le_of_lt h
  have hvalid := civil_valid (secs / 86400)
  have hmonth := hvalid.month
  have hday := hvalid.day
  have hlength := monthLength_le (civil (secs / 86400)).year (civil (secs / 86400)).month
  have hminutes : secs % 86400 % 3600 / 60 = secs % 3600 / 60 := by omega
  have hseconds : secs % 86400 % 60 = secs % 60 := by omega
  unfold formatIso isoTextOf isoText
  dsimp only
  rw [dateOfDays_eq, hminutes, hseconds, padded_eq_digits (by decide) (by omega),
    padded_eq_digits (by decide) (by omega), padded_eq_digits (by decide) (by omega),
    padded_eq_digits (by decide) (by omega), padded_eq_digits (by decide) (by omega),
    padded_eq_digits (by decide) (by omega)]
  simp only [List.append_assoc, List.cons_append]

/-- The fields are compared from the left to the right, and all of them have their width. -/
theorem isoTextOf_lt {a b : Nat} (h : a < b) (hb : b < endOfIso) : isoTextOf a < isoTextOf b := by
  have hyear := year_le_of_lt hb
  have hvalid := civil_valid (b / 86400)
  have hmonth := hvalid.month
  have hday := hvalid.day
  have hlength := monthLength_le (civil (b / 86400)).year (civil (b / 86400)).month
  have hskip : ∀ (c : Char) {l l' : List Char}, l < l' → c :: l < c :: l' :=
    fun c _ _ hlt => append_lt_append_left [c] hlt
  unfold isoTextOf isoText
  rcases Nat.lt_or_eq_of_le (Nat.div_le_div_right (c := 86400) h.le) with hdays | hdays
  · rcases civil_before hdays with hlt | ⟨heq, hlt | ⟨heq', hlt⟩⟩
    · exact append_lt_append_of_lt (by simp) (digits_lt hlt (by omega))
    · rw [heq]
      refine append_lt_append_left _ (hskip _ ?_)
      exact append_lt_append_of_lt (by simp) (digits_lt hlt (by omega))
    · rw [heq, heq']
      refine append_lt_append_left _ (hskip _ (append_lt_append_left _ (hskip _ ?_)))
      exact append_lt_append_of_lt (by simp) (digits_lt hlt (by omega))
  rw [hdays]
  refine append_lt_append_left _ (hskip _ (append_lt_append_left _ (hskip _
    (append_lt_append_left _ (hskip _ ?_)))))
  rcases Nat.lt_or_eq_of_le (show a % 86400 / 3600 ≤ b % 86400 / 3600 by omega) with hhours | hhours
  · exact append_lt_append_of_lt (by simp) (digits_lt hhours (by omega))
  rw [hhours]
  refine append_lt_append_left _ (hskip _ ?_)
  rcases Nat.lt_or_eq_of_le (show a % 3600 / 60 ≤ b % 3600 / 60 by omega) with hminutes | hminutes
  · exact append_lt_append_of_lt (by simp) (digits_lt hminutes (by omega))
  rw [hminutes]
  refine append_lt_append_left _ (hskip _ ?_)
  exact append_lt_append_of_lt (by simp) (digits_lt (by omega) (by omega))

/-- The texts say the date and the time, and are in the order of the times. -/
theorem format_iso_gregorian :
    (∀ secs, secs < endOfIso →
      (civil (secs / 86400)).Valid ∧ (civil (secs / 86400)).year ≤ 9999 ∧
        (formatIso secs).toList = isoText (civil (secs / 86400)) (secs % 86400 / 3600)
          (secs % 3600 / 60) (secs % 60) ∧ (formatIso secs).length = 20) ∧
    (∀ a b, a < endOfIso → b < endOfIso →
      (formatIso a < formatIso b ↔ a < b) ∧ (formatIso a = formatIso b ↔ a = b)) ∧
    ∀ days, let (y, remaining) := yearLoop 1970 days
      let (m, left) := monthLoop (monthDays y) 0 remaining
      1 ≤ m ∧ m ≤ 12 ∧ 1 ≤ left + 1 ∧ left + 1 ≤ monthLength y m := by
  have hmono : ∀ a b, a < endOfIso → b < endOfIso → a < b → formatIso a < formatIso b := by
    intro a b ha hb h
    rw [formatIso_eq ha, formatIso_eq hb, String.lt_iff_toList_lt, String.toList_ofList,
      String.toList_ofList]
    exact isoTextOf_lt h hb
  refine ⟨fun secs h => ⟨civil_valid _, year_le_of_lt h, ?_, ?_⟩, fun a b ha hb => ⟨?_, ?_⟩,
    month_found⟩
  · rw [formatIso_eq h, String.toList_ofList]
    rfl
  · rw [formatIso_eq h, ← String.length_toList, String.toList_ofList]
    simp [isoTextOf, isoText]
  · refine ⟨fun hlt => ?_, hmono a b ha hb⟩
    by_contra hle
    rcases Nat.lt_or_eq_of_le (Nat.le_of_not_lt hle) with h | rfl
    · exact lt_asymm hlt (hmono b a hb ha h)
    · exact lt_irrefl _ hlt
  · refine ⟨fun heq => ?_, fun heq => by rw [heq]⟩
    rcases Nat.lt_trichotomy a b with h | h | h
    · exact absurd heq (hmono a b ha hb h).ne
    · exact h
    · exact absurd heq (hmono b a hb ha h).ne'

theorem format_iso_leap_day : (formatIso 951782400).length = 20 ∧
    (formatIso 951782399 < formatIso 951782400 ↔ 951782399 < 951782400) :=
  ⟨(format_iso_gregorian.1 951782400 (by decide)).2.2.2,
    (format_iso_gregorian.2.1 951782399 951782400 (by decide) (by decide)).1⟩

end texts

end PersistShell
