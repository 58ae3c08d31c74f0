import Mathlib.Tactic

set_option autoImplicit false

/-! # Dates and times of day

The days of the calendar are numbered (`Date.dayNumber`), one after another (`dayNumber_next`) and
each only once (`dayNumber_injective`), so that points in time can be compared as numbers of
seconds (`DateTime.seconds`). A date and a time of day are compared one after the other
(`seconds_le_iff`).
-/

namespace Calendar

/-! ## Months and years -/

/-- A leap year. -/
def isLeap (y : Nat) : Bool := y % 4 == 0 && (y % 100 != 0 || y % 400 == 0)

/-- The days of a month. -/
def monthLength (y m : Nat) : Nat :=
  if m = 2 then (if isLeap y then 29 else 28)
  else if m = 4 ∨ m = 6 ∨ m = 9 ∨ m = 11 then 30
  else 31

/-- The days of the months before month `m + 1`. -/
def daysBeforeMonth (y : Nat) : Nat → Nat
  | 0 => 0
  | m + 1 => daysBeforeMonth y m + monthLength y (m + 1)

/-- The days of the years before year `y`. -/
def daysBeforeYear : Nat → Nat
  | 0 => 0
  | y + 1 => daysBeforeYear y + daysBeforeMonth y 12

theorem daysBeforeYear_succ (y : Nat) :
    daysBeforeYear (y + 1) = daysBeforeYear y + daysBeforeMonth y 12 := rfl

/-- December has 31 days. -/
theorem daysBeforeMonth_twelve (y : Nat) : daysBeforeMonth y 12 = daysBeforeMonth y 11 + 31 := rfl

theorem daysBeforeMonth_mono (y : Nat) : Monotone (daysBeforeMonth y) :=
  monotone_nat_of_le_succ fun _ => Nat.le_add_right _ _

theorem daysBeforeYear_mono : Monotone daysBeforeYear :=
  monotone_nat_of_le_succ fun _ => Nat.le_add_right _ _

/-! ## Dates -/

/-- A date. -/
structure Date where
  year : Nat
  month : Nat
  day : Nat
  month_pos : 1 ≤ month
  month_le : month ≤ 12
  day_pos : 1 ≤ day
  day_le : day ≤ monthLength year month
deriving DecidableEq

namespace Date

/-- The date of three numbers. -/
def ofNumbers (year month day : Nat)
    (h : (1 ≤ month ∧ month ≤ 12) ∧ 1 ≤ day ∧ day ≤ monthLength year month) : Date :=
  ⟨year, month, day, h.1.1, h.1.2, h.2.1, h.2.2⟩

/-- The number of a day. -/
def dayNumber (d : Date) : Nat :=
  daysBeforeYear d.year + daysBeforeMonth d.year (d.month - 1) + d.day

theorem month_eq (d : Date) : d.month = d.month - 1 + 1 := by
  have hpos := d.month_pos
  omega

/-- A date is in its month. -/
theorem dayNumber_le_month (d : Date) :
    d.dayNumber ≤ daysBeforeYear d.year + daysBeforeMonth d.year d.month := by
  have hle := d.day_le
  have hmonth : daysBeforeMonth d.year d.month =
      daysBeforeMonth d.year (d.month - 1) + monthLength d.year d.month := by
    conv_lhs => rw [d.month_eq]
    rw [daysBeforeMonth, ← d.month_eq]
  rw [dayNumber, hmonth]
  omega

/-- A date is in its year. -/
theorem dayNumber_le_year (d : Date) : d.dayNumber ≤ daysBeforeYear (d.year + 1) := by
  have hle := d.dayNumber_le_month
  have hmonth := daysBeforeMonth_mono d.year d.month_le
  rw [daysBeforeYear]
  omega

/-- A later year has higher numbers. -/
theorem dayNumber_lt_of_year {d e : Date} (h : d.year < e.year) : d.dayNumber < e.dayNumber := by
  have hle := d.dayNumber_le_year
  have hyear := daysBeforeYear_mono (Nat.succ_le_of_lt h)
  have hpos := e.day_pos
  have he : e.dayNumber = daysBeforeYear e.year + daysBeforeMonth e.year (e.month - 1) + e.day :=
    rfl
  simp only [Nat.succ_eq_add_one] at hyear
  omega

/-- In one year a later month has higher numbers. -/
theorem dayNumber_lt_of_month {d e : Date} (hyear : d.year = e.year) (h : d.month < e.month) :
    d.dayNumber < e.dayNumber := by
  have hle := d.dayNumber_le_month
  have hmonth := daysBeforeMonth_mono d.year (Nat.le_sub_one_of_lt h)
  have hpos := e.day_pos
  have he : e.dayNumber = daysBeforeYear e.year + daysBeforeMonth e.year (e.month - 1) + e.day :=
    rfl
  rw [hyear] at hle hmonth
  omega

/-- In one month a later day has a higher number. -/
theorem dayNumber_lt_of_day {d e : Date} (hyear : d.year = e.year) (hmonth : d.month = e.month)
    (h : d.day < e.day) : d.dayNumber < e.dayNumber := by
  rw [dayNumber, dayNumber, hyear, hmonth]
  omega

/-- **No two dates have the same number.** -/
theorem dayNumber_injective : Function.Injective dayNumber := by
  intro d e h
  have hyear : d.year = e.year := by
    rcases lt_trichotomy d.year e.year with hlt | heq | hlt
    · exact absurd h (dayNumber_lt_of_year hlt).ne
    · exact heq
    · exact absurd h.symm (dayNumber_lt_of_year hlt).ne
  have hmonth : d.month = e.month := by
    rcases lt_trichotomy d.month e.month with hlt | heq | hlt
    · exact absurd h (dayNumber_lt_of_month hyear hlt).ne
    · exact heq
    · exact absurd h.symm (dayNumber_lt_of_month hyear.symm hlt).ne
  have hday : d.day = e.day := by
    rcases lt_trichotomy d.day e.day with hlt | heq | hlt
    · exact absurd h (dayNumber_lt_of_day hyear hmonth hlt).ne
    · exact heq
    · exact absurd h.symm (dayNumber_lt_of_day hyear.symm hmonth.symm hlt).ne
  cases d
  cases e
  simp only at hyear hmonth hday
  subst hyear hmonth hday
  rfl

/-- A month has a first day. -/
theorem one_le_monthLength (y m : Nat) : 1 ≤ monthLength y m := by
  unfold monthLength
  split
  · split <;> omega
  · split <;> omega

/-- The day after a date. -/
def next (d : Date) : Date :=
  if hday : d.day < monthLength d.year d.month then
    { d with day := d.day + 1, day_pos := Nat.le_add_left 1 d.day, day_le := hday }
  else if hmonth : d.month < 12 then
    { year := d.year
      month := d.month + 1
      day := 1
      month_pos := Nat.le_add_left 1 d.month
      month_le := hmonth
      day_pos := Nat.le_refl 1
      day_le := one_le_monthLength _ _ }
  else
    { year := d.year + 1
      month := 1
      day := 1
      month_pos := Nat.le_refl 1
      month_le := by decide
      day_pos := Nat.le_refl 1
      day_le := one_le_monthLength _ _ }

/-- **The next day has the next number.** -/
theorem dayNumber_next (d : Date) : d.next.dayNumber = d.dayNumber + 1 := by
  have hday := d.day_le
  have hle := d.month_le
  have hmonth := d.month_eq
  unfold next
  split
  · rfl
  · -- the last day of a month
    have hlast : d.day = monthLength d.year d.month := by omega
    have hsum : daysBeforeMonth d.year d.month =
        daysBeforeMonth d.year (d.month - 1) + monthLength d.year d.month := by
      conv_lhs => rw [hmonth]
      rw [daysBeforeMonth, ← hmonth]
    split
    · show daysBeforeYear d.year + daysBeforeMonth d.year (d.month + 1 - 1) + 1 = _
      rw [Nat.add_sub_cancel, dayNumber, hlast, hsum]
      omega
    · -- the last day of a year
      have htwelve : d.month = 12 := by omega
      show daysBeforeYear d.year + daysBeforeMonth d.year 12 + daysBeforeMonth (d.year + 1) 0 + 1 =
        _
      rw [dayNumber, hlast, ← htwelve, hsum, daysBeforeMonth]
      omega

/-- The year of the next day. -/
theorem year_next_of_ne {d : Date} (h : ¬ (d.month = 12 ∧ d.day = 31)) : d.next.year = d.year := by
  have hle := d.month_le
  have hday := d.day_le
  unfold next
  split
  · rfl
  · split
    · rfl
    · next hlast hmonth =>
        refine absurd ⟨by omega, ?_⟩ h
        have htwelve : d.month = 12 := by omega
        rw [htwelve] at hday hlast
        have hlength : monthLength d.year 12 = 31 := rfl
        omega

theorem year_next_le (d : Date) : d.next.year ≤ d.year + 1 := by
  unfold next
  split
  · exact Nat.le_succ _
  · split
    · exact Nat.le_succ _
    · exact Nat.le_refl _

/-- **Every day but the first of all comes after one**, which is in the same year unless the day is
the first of a year. -/
theorem exists_before (d : Date) (h : ¬ (d.month = 1 ∧ d.day = 1) ∨ 0 < d.year) :
    ∃ e : Date, e.dayNumber + 1 = d.dayNumber ∧ d.year ≤ e.year + 1
      ∧ (¬ (d.month = 1 ∧ d.day = 1) → e.year = d.year) := by
  have hpos := d.day_pos
  have hle := d.day_le
  have hmonth := d.month_pos
  have hmonth' := d.month_le
  by_cases hday : d.day = 1
  · by_cases hfirst : d.month = 1
    · -- the last day of the year before
      obtain ⟨y, hy⟩ := Nat.exists_eq_succ_of_ne_zero (h.resolve_left fun hno => hno ⟨hfirst, hday⟩).ne'
      refine ⟨⟨y, 12, 31, by decide, by decide, by decide, Nat.le_refl 31⟩, ?_, hy.le,
        fun hno => absurd ⟨hfirst, hday⟩ hno⟩
      have hdec : daysBeforeMonth y 12 = daysBeforeMonth y 11 + 31 := daysBeforeMonth_twelve y
      show daysBeforeYear y + daysBeforeMonth y 11 + 31 + 1 = _
      rw [dayNumber, hfirst, hday, hy, daysBeforeYear_succ, hdec, Nat.sub_self, daysBeforeMonth]
      omega
    · -- the last day of the month before
      refine ⟨⟨d.year, d.month - 1, monthLength d.year (d.month - 1), by omega, by omega,
        one_le_monthLength _ _, Nat.le_refl _⟩, ?_, Nat.le_succ _, fun _ => rfl⟩
      have hpred : d.month - 1 = d.month - 1 - 1 + 1 := by omega
      have hsum : daysBeforeMonth d.year (d.month - 1) =
          daysBeforeMonth d.year (d.month - 1 - 1) + monthLength d.year (d.month - 1) := by
        conv_lhs => rw [hpred]
        rw [daysBeforeMonth, ← hpred]
      show daysBeforeYear d.year + daysBeforeMonth d.year (d.month - 1 - 1)
        + monthLength d.year (d.month - 1) + 1 = _
      rw [dayNumber, hday, hsum]
      omega
  · -- the day before in the month
    refine ⟨{ d with day := d.day - 1, day_pos := by omega, day_le := by omega }, ?_, Nat.le_succ _,
      fun _ => rfl⟩
    show daysBeforeYear d.year + daysBeforeMonth d.year (d.month - 1) + (d.day - 1) + 1 = _
    rw [dayNumber]
    omega

/-- The first day of a year. -/
theorem dayNumber_le_of_first {d e : Date} (hmonth : d.month = 1) (hday : d.day = 1)
    (h : d.year ≤ e.year) : d.dayNumber ≤ e.dayNumber := by
  have hpos := e.day_pos
  have hyear := daysBeforeYear_mono h
  rw [dayNumber, dayNumber, hmonth, hday, Nat.sub_self, daysBeforeMonth]
  omega

/-- The last day of a year. -/
theorem dayNumber_le_of_last {d e : Date} (hmonth : d.month = 12) (hday : d.day = 31)
    (h : e.year ≤ d.year) : e.dayNumber ≤ d.dayNumber := by
  have hle := e.dayNumber_le_year
  have hyear := daysBeforeYear_mono (Nat.succ_le_succ h)
  have hlast : daysBeforeYear (d.year + 1) = d.dayNumber := by
    rw [dayNumber, hmonth, hday, daysBeforeYear_succ, daysBeforeMonth_twelve, ← Nat.add_assoc]
  exact (hle.trans hyear).trans hlast.le

/-- A date that is not later is in no later year. -/
theorem year_le_of_dayNumber_le {d e : Date} (h : d.dayNumber ≤ e.dayNumber) :
    d.year ≤ e.year := by
  by_contra hyear
  exact absurd h (Nat.not_le.mpr (dayNumber_lt_of_year (Nat.lt_of_not_le hyear)))

end Date

/-! ## Times of day -/

/-- A time of day. -/
structure Time where
  hour : Nat
  min : Nat
  sec : Nat
  hour_lt : hour < 24
  min_lt : min < 60
  sec_lt : sec < 60
deriving DecidableEq

/-- The seconds from midnight to a time of day. -/
def Time.seconds (t : Time) : Nat := t.hour * 3600 + t.min * 60 + t.sec

theorem Time.seconds_lt (t : Time) : t.seconds < 86400 := by
  have hhour := t.hour_lt
  have hmin := t.min_lt
  have hsec := t.sec_lt
  rw [seconds]
  omega

/-- The time of day after a number of seconds. -/
def Time.ofSeconds (n : Nat) (hn : n < 86400) : Time where
  hour := n / 3600
  min := n % 3600 / 60
  sec := n % 60
  hour_lt := by omega
  min_lt := by omega
  sec_lt := by omega

theorem Time.seconds_ofSeconds (n : Nat) (hn : n < 86400) : (ofSeconds n hn).seconds = n := by
  show n / 3600 * 3600 + n % 3600 / 60 * 60 + n % 60 = n
  omega

/-! ## Points in time -/

/-- A date with a time of day. -/
structure DateTime where
  date : Date
  time : Time
deriving DecidableEq

/-- The number of a second. -/
def DateTime.seconds (t : DateTime) : Nat := t.date.dayNumber * 86400 + t.time.seconds

/-- Points in time are ordered by the date, and on one date by the time of day. -/
theorem DateTime.seconds_le_iff (s t : DateTime) :
    s.seconds ≤ t.seconds ↔ s.date.dayNumber < t.date.dayNumber ∨
      s.date = t.date ∧ s.time.seconds ≤ t.time.seconds := by
  have hs := s.time.seconds_lt
  have ht := t.time.seconds_lt
  rw [← Date.dayNumber_injective.eq_iff, DateTime.seconds, DateTime.seconds]
  omega

end Calendar
