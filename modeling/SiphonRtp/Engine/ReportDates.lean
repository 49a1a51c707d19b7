import SiphonRtp.Machine.Text

/-!
# The dates of quality reports

`date_time` and `civil_date` of `siphon-rtp-proto/src/vq_rtcpxr.rs`. The date of a day is computed
in closed form, in years that begin in March (`marchDate`), and is here compared with the calendar
as it is counted day by day (`CivilDate.next`).
-/

set_option autoImplicit false

namespace SiphonRtp.Engine.ReportDates

open Machine

/-! ### The calendar -/

structure CivilDate where
  year : ℕ
  month : ℕ
  day : ℕ
deriving DecidableEq

/-- A leap year of the Gregorian calendar. -/
def IsLeap (year : ℕ) : Prop := year % 4 = 0 ∧ (year % 100 ≠ 0 ∨ year % 400 = 0)

instance : DecidablePred IsLeap := fun _ ↦ inferInstanceAs (Decidable (_ ∧ _))

def daysInMonth (year month : ℕ) : ℕ :=
  if month = 2 then if IsLeap year then 29 else 28
  else if month = 4 ∨ month = 6 ∨ month = 9 ∨ month = 11 then 30 else 31

/-- The day after. -/
def CivilDate.next (date : CivilDate) : CivilDate :=
  if date.day < daysInMonth date.year date.month then { date with day := date.day + 1 }
  else if date.month < 12 then ⟨date.year, date.month + 1, 1⟩
  else ⟨date.year + 1, 1, 1⟩

/-- The day so many days after 1970-01-01. -/
def calendarDay (days : ℕ) : CivilDate := CivilDate.next^[days] ⟨1970, 1, 1⟩

/-! ### The source -/

def lastRepresentableSecond : ℕ := 253402300799

/-- `civil_date`. -/
def civilDate (days : ℕ) : CivilDate :=
  let shifted := days + 719468
  let era := shifted / 146097
  let dayOfEra := shifted - era * 146097
  let yearOfEra := (dayOfEra - dayOfEra / 1460 + dayOfEra / 36524 - dayOfEra / 146096) / 365
  let dayOfYear := dayOfEra - (365 * yearOfEra + yearOfEra / 4 - yearOfEra / 100)
  let monthFromMarch := (5 * dayOfYear + 2) / 153
  let day := dayOfYear - (153 * monthFromMarch + 2) / 5 + 1
  let month := if monthFromMarch < 10 then monthFromMarch + 3 else monthFromMarch - 9
  let year := yearOfEra + era * 400 + if month ≤ 2 then 1 else 0
  ⟨year, month, day⟩

/-- A number with leading zeros. -/
def padded (width n : ℕ) : Text :=
  List.replicate (width - (numeral n).length) '0' ++ numeral n

def dateTimeText (date : CivilDate) (hour minute second : ℕ) : Text :=
  padded 4 date.year ++ '-' :: (padded 2 date.month ++ '-' :: (padded 2 date.day ++ 'T' ::
    (padded 2 hour ++ ':' :: (padded 2 minute ++ ':' :: (padded 2 second ++ ['Z'])))))

inductive VqReportError
  | outOfRange (field : String)
deriving DecidableEq

/-- `date_time`. -/
def dateTime (seconds : ℕ) : Except VqReportError Text :=
  if lastRepresentableSecond < seconds then .error (.outOfRange "Timestamps")
  else
    let secondOfDay := seconds % 86400
    .ok (dateTimeText (civilDate (seconds / 86400)) (secondOfDay / 3600) (secondOfDay / 60 % 60)
      (secondOfDay % 60))

/-! ### Years from March -/

/-- The days of the era before a year of it. -/
def daysBefore (yearOfEra : ℕ) : ℕ := 365 * yearOfEra + yearOfEra / 4 - yearOfEra / 100

/-- The year that a day of the era is in. -/
def yearOf (dayOfEra : ℕ) : ℕ :=
  (dayOfEra - dayOfEra / 1460 + dayOfEra / 36524 - dayOfEra / 146096) / 365

/-- The days of a year that begins in March: its February is that of the next year. -/
def yearLength (year : ℕ) : ℕ := if IsLeap (year + 1) then 366 else 365

/-- A day of the era by its century, the four years of it, the year of these, and the day. -/
theorem dayOfEra_parts {dayOfEra : ℕ} (hday : dayOfEra < 146097) :
    ∃ century four year day, dayOfEra = 36524 * century + 1461 * four + 365 * year + day ∧
      century ≤ 3 ∧ four ≤ 24 ∧ year ≤ 3 ∧
        (day < 365 ∨ day = 365 ∧ year = 3 ∧ (four < 24 ∨ century = 3)) := by
  obtain ⟨century, rest, hcentury, hrest⟩ : ∃ century rest, dayOfEra = 36524 * century + rest ∧
      (century ≤ 3 ∧ rest < 36524 ∨ century = 3 ∧ rest = 36524) := by
    by_cases hlast : dayOfEra = 146096
    · exact ⟨3, 36524, by omega, by omega⟩
    · exact ⟨dayOfEra / 36524, dayOfEra % 36524, by omega, by omega⟩
  by_cases hleap : rest % 1461 = 1460
  · exact ⟨century, rest / 1461, 3, 365, by omega, by omega, by omega, by omega, by omega⟩
  · exact ⟨century, rest / 1461, rest % 1461 / 365, rest % 1461 % 365, by omega, by omega, by omega,
      by omega, by omega⟩

section Parts

variable {century four year : ℕ}

theorem daysBefore_parts (hfour : four ≤ 24) (hyear : year ≤ 3) :
    daysBefore (100 * century + 4 * four + year) =
      36524 * century + 1461 * four + 365 * year := by
  rw [daysBefore]
  omega

theorem yearOf_parts {day : ℕ} (hcentury : century ≤ 3) (hfour : four ≤ 24) (hyear : year ≤ 3)
    (hday : day < 365 ∨ day = 365 ∧ year = 3 ∧ (four < 24 ∨ century = 3)) :
    yearOf (36524 * century + 1461 * four + 365 * year + day) =
      100 * century + 4 * four + year := by
  -- Dividing by 1460 counts the leap days up to this year's own, which is counted early.
  obtain ⟨early, hearly, hpart⟩ : ∃ early,
      (36524 * century + 1461 * four + 365 * year + day) / 1460 = 25 * century + four + early ∧
        (early = 0 ∧ day < 365 ∨ early = 1 ∧ 0 < day) := by
    by_cases hbefore : 24 * century + four + 365 * year + day < 1460
    · exact ⟨0, by omega, by omega⟩
    · exact ⟨1, by omega, by omega⟩
  obtain ⟨last, hcenturies, hera, hlast⟩ : ∃ last,
      (36524 * century + 1461 * four + 365 * year + day) / 36524 = century + last ∧
        (36524 * century + 1461 * four + 365 * year + day) / 146096 = last ∧ last ≤ 1 := by
    by_cases hbefore : 1461 * four + 365 * year + day < 36524
    · exact ⟨0, by omega, by omega, by omega⟩
    · exact ⟨1, by omega, by omega, by omega⟩
  rw [yearOf, hearly, hcenturies, hera]
  omega

end Parts

theorem yearOf_spec {dayOfEra : ℕ} (hday : dayOfEra < 146097) :
    ∃ day, dayOfEra = daysBefore (yearOf dayOfEra) + day ∧ yearOf dayOfEra < 400 ∧
      day < yearLength (yearOf dayOfEra) := by
  obtain ⟨century, four, year, day, rfl, hcentury, hfour, hyear, hlast⟩ := dayOfEra_parts hday
  rw [yearOf_parts hcentury hfour hyear hlast, daysBefore_parts hfour hyear]
  refine ⟨day, rfl, by omega, ?_⟩
  rcases hlast with hlast | ⟨rfl, rfl, hleap⟩
  · rw [yearLength]
    split_ifs
    all_goals omega
  · have hyear : IsLeap (100 * century + 4 * four + 3 + 1) := by
      refine ⟨by omega, ?_⟩
      rcases hleap with hfour | rfl
      · exact .inl (by omega)
      · omega
    rw [yearLength, if_pos hyear]
    decide

theorem daysBefore_succ : ∀ year < 399,
    daysBefore year + yearLength year = daysBefore (year + 1) := by
  decide +kernel

theorem daysBefore_le {year later : ℕ} (hlt : year < later) (hlater : later < 400) :
    daysBefore year + yearLength year ≤ daysBefore later := by
  induction later, hlt using Nat.le_induction with
  | base => exact (daysBefore_succ year (by omega)).le
  | succ later _ ih =>
    rw [← daysBefore_succ later (by omega)]
    exact (ih (by omega)).trans (Nat.le_add_right _ _)

/-- The year and the day in it are determined by the day of the era. -/
theorem year_unique {year year' day day' : ℕ} (hyear : year < 400) (hyear' : year' < 400)
    (hday : day < yearLength year) (hday' : day' < yearLength year')
    (hsame : daysBefore year + day = daysBefore year' + day') : year = year' ∧ day = day' := by
  rcases Nat.lt_trichotomy year year' with hlt | rfl | hlt
  · have hle := daysBefore_le hlt hyear'
    omega
  · exact ⟨rfl, by omega⟩
  · have hle := daysBefore_le hlt hyear
    omega

/-- The day so many days after the first of March of a year. -/
structure IsMarch (days year day : ℕ) : Prop where
  inYear : day < yearLength year
  counted : ∃ era yearOfEra, yearOfEra < 400 ∧ year = yearOfEra + era * 400 ∧
    days + 719468 = era * 146097 + (daysBefore yearOfEra + day)

/-- The date of such a day. -/
def marchDate (year day : ℕ) : CivilDate :=
  let monthFromMarch := (5 * day + 2) / 153
  let month := if monthFromMarch < 10 then monthFromMarch + 3 else monthFromMarch - 9
  ⟨year + if month ≤ 2 then 1 else 0, month, day - (153 * monthFromMarch + 2) / 5 + 1⟩

theorem yearLength_add_era (year era : ℕ) : yearLength (year + era * 400) = yearLength year := by
  have hleap : IsLeap (year + era * 400 + 1) ↔ IsLeap (year + 1) := by
    unfold IsLeap
    omega
  simp only [yearLength, hleap]

theorem daysBefore_add_lt {year day : ℕ} (hyear : year < 400) (hday : day < yearLength year) :
    daysBefore year + day < 146097 := by
  rcases Nat.lt_or_ge year 399 with hlt | hge
  · have hle := daysBefore_le hlt (by decide)
    have hlast : daysBefore 399 = 145731 := by decide
    omega
  · obtain rfl : year = 399 := by omega
    have hlast : daysBefore 399 = 145731 ∧ yearLength 399 = 366 := by decide
    omega

theorem exists_isMarch (days : ℕ) : ∃ year day, IsMarch days year day := by
  obtain ⟨day, hsplit, hyear, hday⟩ :=
    yearOf_spec (Nat.mod_lt (days + 719468) (show 0 < 146097 by decide))
  refine ⟨_, day, ⟨?_, (days + 719468) / 146097, _, hyear, rfl, ?_⟩⟩
  · rw [yearLength_add_era]
    exact hday
  · omega

/-- The source computes the date of the day. -/
theorem civilDate_of_isMarch {days year day : ℕ} (hmarch : IsMarch days year day) :
    civilDate days = marchDate year day := by
  obtain ⟨era, yearOfEra, hyear, rfl, hcounted⟩ := hmarch.counted
  have hday : day < yearLength yearOfEra := by
    rw [← yearLength_add_era yearOfEra era]
    exact hmarch.inYear
  have hlt := daysBefore_add_lt hyear hday
  have hera : (days + 719468) / 146097 = era := by omega
  have hdayOfEra : days + 719468 - era * 146097 = daysBefore yearOfEra + day := by omega
  obtain ⟨day', hsplit, hyear', hday'⟩ := yearOf_spec hlt
  obtain ⟨hsame, rfl⟩ := year_unique hyear hyear' hday hday' hsplit
  have hyearOf : (daysBefore yearOfEra + day - (daysBefore yearOfEra + day) / 1460 +
      (daysBefore yearOfEra + day) / 36524 - (daysBefore yearOfEra + day) / 146096) / 365 =
        yearOfEra := hsame.symm
  have hdayOfYear : daysBefore yearOfEra + day -
      (365 * yearOfEra + yearOfEra / 4 - yearOfEra / 100) = day :=
    Nat.add_sub_cancel_left _ _
  simp only [civilDate, hera, hdayOfEra, hyearOf, hdayOfYear]
  rfl

/-- The year and the day after. -/
def marchNext (year day : ℕ) : ℕ × ℕ :=
  if day + 1 < yearLength year then (year, day + 1) else (year + 1, 0)

theorem IsMarch.next {days year day : ℕ} (hmarch : IsMarch days year day) :
    IsMarch (days + 1) (marchNext year day).1 (marchNext year day).2 := by
  obtain ⟨hday, era, yearOfEra, hyear, rfl, hcounted⟩ := hmarch
  have hpos (year : ℕ) : 0 < yearLength year := by
    unfold yearLength
    split_ifs <;> decide
  unfold marchNext
  split_ifs with hinside
  · exact ⟨hinside, era, yearOfEra, hyear, rfl, by omega⟩
  · rw [yearLength_add_era] at hday hinside
    rcases Nat.lt_or_ge yearOfEra 399 with hlt | hge
    · refine ⟨hpos _, era, yearOfEra + 1, by omega, by omega, ?_⟩
      rw [← daysBefore_succ yearOfEra hlt]
      omega
    · obtain rfl : yearOfEra = 399 := by omega
      refine ⟨hpos _, era + 1, 0, by omega, by omega, ?_⟩
      have hlast : daysBefore 399 = 145731 ∧ yearLength 399 = 366 ∧ daysBefore 0 = 0 := by decide
      omega

/-- The months, within a year from March without its last day. -/
theorem march_table : ∀ day < 364,
    let date := marchDate 0 day
    let after := marchDate 0 (day + 1)
    1 ≤ date.month ∧ date.month ≤ 12 ∧
    (date.month = 2 → date.day < 28) ∧
    ((date.day < daysInMonth 1 date.month ∧ after = { date with day := date.day + 1 }) ∨
      (date.day = daysInMonth 1 date.month ∧ date.month ≠ 2 ∧
        after = if date.month < 12 then ⟨date.year, date.month + 1, 1⟩
          else ⟨date.year + 1, 1, 1⟩)) := by
  decide +kernel

theorem marchDate_eq (year day : ℕ) :
    marchDate year day =
      ⟨year + (marchDate 0 day).year, (marchDate 0 day).month, (marchDate 0 day).day⟩ := by
  simp [marchDate]

/-- Only the length of February depends on the year. -/
theorem daysInMonth_eq {month : ℕ} (hmonth : month ≠ 2) (year other : ℕ) :
    daysInMonth year month = daysInMonth other month := by
  simp [daysInMonth, hmonth]

theorem next_marchDate {year day : ℕ} (hday : day < yearLength year) :
    (marchDate year day).next = marchDate (marchNext year day).1 (marchNext year day).2 := by
  rcases Nat.lt_or_ge day 364 with hlt | hge
  · have hinside : day + 1 < yearLength year := by
      unfold yearLength
      split_ifs <;> omega
    obtain ⟨-, -, hfebruary, htable⟩ := march_table day hlt
    rw [marchNext, if_pos hinside, marchDate_eq year day, marchDate_eq year (day + 1)]
    rcases htable with ⟨hbefore, hafter⟩ | ⟨hlast, hmonth, hafter⟩
    · have hroom : (marchDate 0 day).day <
          daysInMonth (year + (marchDate 0 day).year) (marchDate 0 day).month := by
        by_cases hmonth : (marchDate 0 day).month = 2
        · simp only [daysInMonth]
          split_ifs <;> omega
        · rw [daysInMonth_eq hmonth _ 1]
          exact hbefore
      rw [CivilDate.next, if_pos hroom, hafter]
    · have hfull : ¬ (marchDate 0 day).day <
          daysInMonth (year + (marchDate 0 day).year) (marchDate 0 day).month := by
        rw [daysInMonth_eq hmonth _ 1]
        omega
      rw [CivilDate.next, if_neg hfull, hafter]
      split_ifs <;> rfl
  · -- The end of February, in the year that follows the one from March.
    by_cases hleap : IsLeap (year + 1)
    · rw [yearLength, if_pos hleap] at hday
      obtain rfl | rfl : day = 364 ∨ day = 365 := by omega
      · simp [marchNext, yearLength, marchDate, CivilDate.next, daysInMonth, hleap]
      · simp [marchNext, yearLength, marchDate, CivilDate.next, daysInMonth, hleap]
    · rw [yearLength, if_neg hleap] at hday
      obtain rfl : day = 364 := by omega
      simp [marchNext, yearLength, marchDate, CivilDate.next, daysInMonth, hleap]

/-- The closed form counts as the calendar does. -/
theorem civilDate_eq_calendarDay (days : ℕ) : civilDate days = calendarDay days := by
  induction days with
  | zero => rfl
  | succ days ih =>
    obtain ⟨year, day, hmarch⟩ := exists_isMarch days
    rw [civilDate_of_isMarch hmarch.next, ← next_marchDate hmarch.inYear,
      ← civilDate_of_isMarch hmarch, ih, calendarDay, calendarDay, Function.iterate_succ_apply']

example : dateTime 951782400 = .ok "2000-02-29T00:00:00Z".toList := by decide +kernel

end SiphonRtp.Engine.ReportDates
