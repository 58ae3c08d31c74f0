import IcnPrototype.Lib.Calendar
import IcnPrototype.Monitor.LocalInform

set_option autoImplicit false

/-! # History queries

A row of `port_stats` has its date and its time of day in two columns. `mysql_fetch_point_stats`
looks for the rows of a second and its neighbours, and `mysql_fetch_duration_stats` for those
between two points in time.

The first one tests `tm_sec` and `tm_min` the wrong way round where it computes the second before.
The literal is a time that is not the second before, or it has a number -1 in it, and then everything
hangs on what MySQL makes of it; and it looks at one day only. The second one looks at the first and
the last day only. `historyQueries_iff` says what is left.
-/

namespace Monitor

open Bytes Calendar

/-! ## Literals -/

/-- `%d` -/
def printInt (n : Int) : List UInt8 := if n < 0 then 45 :: decimal n.natAbs else decimal n.natAbs

/-- Three numbers with a separator between them. -/
def fieldsText (sep : UInt8) (a b c : Int) : List UInt8 :=
  printInt a ++ sep :: (printInt b ++ sep :: printInt c)

/-- `%d-%d-%d` -/
def dateText (year mon mday : Int) : List UInt8 := fieldsText 45 year mon mday

/-- `%d:%d:%d` -/
def timeText (hour min sec : Int) : List UInt8 := fieldsText 58 hour min sec

/-! ## Clauses -/

/-- A condition on the columns `_date` and `_time`. -/
inductive Cond where
  /-- `_date = lit` -/
  | dateEq (lit : List UInt8)
  /-- `_time = lit` -/
  | timeEq (lit : List UInt8)
  /-- `_time >= lit` -/
  | timeGe (lit : List UInt8)
  /-- `_time <= lit` -/
  | timeLe (lit : List UInt8)
  | and (a b : Cond)
  | or (a b : Cond)

/-- The literal of the second before the one that is asked for. -/
def timeBefore (start : InformTm) : List UInt8 :=
  -- both tests are the wrong way round: the borrow is made where there is something to take
  if start.tmSec ≠ 0 then
    if start.tmMin ≠ 0 then timeText (start.tmHour - 1).toInt 59 59
    else timeText start.tmHour.toInt (start.tmMin - 1).toInt 59
  else timeText start.tmHour.toInt start.tmMin.toInt (start.tmSec - 1).toInt

/-- The literal of the second after it. -/
def timeAfter (start : InformTm) : List UInt8 :=
  if start.tmSec = 59 then
    if start.tmMin = 59 then timeText (start.tmHour + 1).toInt 0 0
    else timeText start.tmHour.toInt (start.tmMin + 1).toInt 0
  else timeText start.tmHour.toInt start.tmMin.toInt (start.tmSec + 1).toInt

/-- `_date` of a `struct _TM`. -/
def tmDate (t : InformTm) : List UInt8 := dateText t.tmYear.toInt t.tmMon.toInt t.tmMday.toInt

/-- `_time` of a `struct _TM`. -/
def tmTime (t : InformTm) : List UInt8 := timeText t.tmHour.toInt t.tmMin.toInt t.tmSec.toInt

/-- The clause of `mysql_fetch_point_stats`. -/
def mysqlFetchPointStats (start : InformTm) : Cond :=
  .and (.dateEq (tmDate start))
    (.or (.or (.timeEq (timeBefore start)) (.timeEq (tmTime start))) (.timeEq (timeAfter start)))

/-- The clause of `mysql_fetch_duration_stats`. `strcmp` compares the texts of the dates. -/
def mysqlFetchDurationStats (start stop : InformTm) : Cond :=
  if tmDate start = tmDate stop then
    .and (.dateEq (tmDate start)) (.and (.timeGe (tmTime start)) (.timeLe (tmTime stop)))
  else
    .or (.and (.dateEq (tmDate start)) (.timeGe (tmTime start)))
      (.and (.dateEq (tmDate stop)) (.timeLe (tmTime stop)))

/-! ## MySQL -/

/-- How MySQL reads the literals. A date and a time are read by value, hours up to 838; nothing is
said about other texts, such as `9:5:-1`. -/
structure MySql where
  date : List UInt8 → Option Date
  time : List UInt8 → Option Int
  date_eq : ∀ d : Date, 1000 ≤ d.year → d.year ≤ 9999 →
    date (dateText d.year d.month d.day) = some d
  time_eq : ∀ hour min sec : Nat, hour ≤ 838 → min < 60 → sec < 60 →
    time (timeText hour min sec) = some ((hour * 3600 + min * 60 + sec : Nat) : Int)

/-- A time stamp: its date is one that a column can have. -/
structure Stamp extends DateTime where
  year_ge : 1000 ≤ date.year
  year_le : date.year ≤ 9999

/-- A row with this time stamp meets the condition. -/
def Cond.Holds (M : MySql) (row : Stamp) : Cond → Prop
  | dateEq lit => M.date lit = some row.date
  | timeEq lit => M.time lit = some (row.time.seconds : Int)
  | timeGe lit => ∃ v, M.time lit = some v ∧ v ≤ row.time.seconds
  | timeLe lit => ∃ v, M.time lit = some v ∧ row.time.seconds ≤ v
  | and a b => a.Holds M row ∧ b.Holds M row
  | or a b => a.Holds M row ∨ b.Holds M row

/-- A time stamp as a `struct _TM`. -/
def Stamp.tm (t : Stamp) : InformTm where
  tmSec := Int32.ofNat t.time.sec
  tmMin := Int32.ofNat t.time.min
  tmHour := Int32.ofNat t.time.hour
  tmMday := Int32.ofNat t.date.day
  tmMon := Int32.ofNat t.date.month
  tmYear := Int32.ofNat t.date.year

/-- The clause for a point in time selects the rows that are at most one second away. -/
def PointSelects (M : MySql) (t : Stamp) : Prop :=
  ∀ row : Stamp, (mysqlFetchPointStats t.tm).Holds M row ↔
    row.seconds ≤ t.seconds + 1 ∧ t.seconds ≤ row.seconds + 1

/-- The clause for a duration selects the rows in between. -/
def DurationSelects (M : MySql) (start stop : Stamp) : Prop :=
  ∀ row : Stamp, (mysqlFetchDurationStats start.tm stop.tm).Holds M row ↔
    start.seconds ≤ row.seconds ∧ row.seconds ≤ stop.seconds

/-- The first day of the columns, 1000-01-01. -/
def firstDay : Date := .ofNumbers 1000 1 1 (by decide)

/-- The last day of the columns, 9999-12-31. -/
def lastDay : Date := .ofNumbers 9999 12 31 (by decide)

/-- MySQL reads the literal as the second before, and the point is neither the first nor the last
second of a day. At the ends of the columns no second is missed on the other day; at the very first
one the literal must only not stand for other rows. -/
def PointRight (M : MySql) (t : Stamp) : Prop :=
  if t.time.seconds = 0 then
    t.date = firstDay
      ∧ ∀ v : Nat, v < 86400 → M.time (timeBefore t.tm) = some (v : Int) → v ≤ 1
  else
    M.time (timeBefore t.tm) = some ((t.time.seconds - 1 : Nat) : Int)
      ∧ (t.time.seconds = 86399 → t.date = lastDay)

/-! ## A MySQL -/

theorem printInt_natCast (n : Nat) : printInt n = decimal n := by
  rw [printInt, if_neg (by omega), Int.natAbs_natCast]

/-- Read three numbers back. -/
def readFields (sep : UInt8) (lit : List UInt8) : Option (Nat × Nat × Nat) :=
  if lit.all fun b => isDigit b || b == sep then
    match lit.splitOn sep with
    | [a, b, c] => some (digitsValue a, digitsValue b, digitsValue c)
    | _ => none
  else none

theorem readFields_fieldsText {sep : UInt8} (hsep : isDigit sep = false) (a b c : Nat) :
    readFields sep (fieldsText sep a b c) = some (a, b, c) := by
  have hall : (fieldsText sep a b c).all (fun b => isDigit b || b == sep) = true := by
    rw [List.all_eq_true]
    intro x hx
    rw [Bool.or_eq_true, beq_iff_eq]
    unfold fieldsText at hx
    simp only [printInt_natCast, List.mem_append, List.mem_cons] at hx
    rcases hx with hx | rfl | hx | rfl | hx
    · exact Or.inl (isDigit_of_mem_decimal hx)
    · exact Or.inr rfl
    · exact Or.inl (isDigit_of_mem_decimal hx)
    · exact Or.inr rfl
    · exact Or.inl (isDigit_of_mem_decimal hx)
  have hsplit : (fieldsText sep a b c).splitOn sep = [decimal a, decimal b, decimal c] := by
    have htext : fieldsText sep a b c = [sep].intercalate [decimal a, decimal b, decimal c] := by
      rw [List.intercalate_cons_cons, List.intercalate_cons_cons, List.intercalate_singleton]
      simp only [fieldsText, printInt_natCast, List.append_assoc, List.singleton_append]
    rw [htext]
    apply List.splitOn_intercalate
    · intro l hl hmem
      have hdigit : isDigit sep = true := by
        simp only [List.mem_cons, List.not_mem_nil, or_false] at hl
        rcases hl with rfl | rfl | rfl <;> exact isDigit_of_mem_decimal hmem
      rw [hsep] at hdigit
      cases hdigit
    · exact List.cons_ne_nil _ _
  rw [readFields, if_pos hall, hsplit]
  simp only [digitsValue_decimal]

/-- A sign is not read. -/
theorem readFields_of_mem {sep : UInt8} (hsep : sep ≠ 45) {lit : List UInt8} (h : 45 ∈ lit) :
    readFields sep lit = none := by
  refine if_neg ?_
  intro hall
  have hbyte := List.all_eq_true.mp hall 45 h
  rw [Bool.or_eq_true, beq_iff_eq] at hbyte
  rcases hbyte with hdigit | heq
  · cases hdigit
  · exact hsep heq.symm

theorem mem_printInt {n : Int} (hn : n < 0) : 45 ∈ printInt n := by
  rw [printInt, if_pos hn]
  exact List.mem_cons_self

/-- A time with a negative number. -/
theorem mem_timeText {hour min sec : Int} (h : hour < 0 ∨ min < 0 ∨ sec < 0) :
    45 ∈ timeText hour min sec := by
  unfold timeText fieldsText
  simp only [List.mem_append, List.mem_cons]
  rcases h with h | h | h
  · exact Or.inl (mem_printInt h)
  · exact Or.inr (Or.inr (Or.inl (mem_printInt h)))
  · exact Or.inr (Or.inr (Or.inr (Or.inr (mem_printInt h))))

/-- A MySQL that makes `bad` of every time it cannot read. -/
def mySql (bad : Option Int) : MySql where
  date lit := (readFields 45 lit).bind fun (y, m, d) =>
    if h : 1 ≤ m ∧ m ≤ 12 ∧ 1 ≤ d ∧ d ≤ monthLength y m then
      some ⟨y, m, d, h.1, h.2.1, h.2.2.1, h.2.2.2⟩
    else none
  time lit :=
    match readFields 58 lit with
    | some (h, m, s) => some ((h * 3600 + m * 60 + s : Nat) : Int)
    | none => bad
  date_eq := by
    intro d _ _
    rw [dateText, readFields_fieldsText rfl, Option.bind_some]
    exact dif_pos ⟨d.month_pos, d.month_le, d.day_pos, d.day_le⟩
  time_eq := by
    intro hour min sec _ _ _
    rw [timeText, readFields_fieldsText rfl]

theorem mySql_time_of_neg (bad : Option Int) {hour min sec : Int}
    (h : hour < 0 ∨ min < 0 ∨ sec < 0) : (mySql bad).time (timeText hour min sec) = bad := by
  show (match readFields 58 (timeText hour min sec) with
    | some (h, m, s) => some ((h * 3600 + m * 60 + s : Nat) : Int)
    | none => bad) = bad
  rw [readFields_of_mem (by decide) (mem_timeText h)]

/-! ## Time stamps as `struct _TM` -/

theorem toInt_ofNat_add_one {n : Nat} (hn : n < 2 ^ 31 - 1) :
    (Int32.ofNat n + 1).toInt = (n : Int) + 1 := by
  have hone : (1 : Int32).toInt = 1 := rfl
  rw [Int32.toInt_add, Int32.toInt_ofNat_of_lt (by omega), hone]
  apply Int.bmod_eq_of_le <;> omega

theorem toInt_ofNat_sub_one {n : Nat} (hn : n < 2 ^ 31) :
    (Int32.ofNat n - 1).toInt = (n : Int) - 1 := by
  have hone : (1 : Int32).toInt = 1 := rfl
  rw [Int32.toInt_sub, Int32.toInt_ofNat_of_lt hn, hone]
  apply Int.bmod_eq_of_le <;> omega

namespace Stamp

variable (t : Stamp)

theorem tmDate_tm : tmDate t.tm = dateText t.date.year t.date.month t.date.day := by
  have hyear := t.year_le
  have hmonth := t.date.month_le
  have hday := t.date.day_le
  have hlength : monthLength t.date.year t.date.month ≤ 31 := by
    unfold monthLength
    split
    · split <;> omega
    · split <;> omega
  rw [tmDate, tm, Int32.toInt_ofNat_of_lt (by omega), Int32.toInt_ofNat_of_lt (by omega),
    Int32.toInt_ofNat_of_lt (by omega)]

theorem tmTime_tm : tmTime t.tm = timeText t.time.hour t.time.min t.time.sec := by
  have hhour := t.time.hour_lt
  have hmin := t.time.min_lt
  have hsec := t.time.sec_lt
  rw [tmTime, tm, Int32.toInt_ofNat_of_lt (by omega), Int32.toInt_ofNat_of_lt (by omega),
    Int32.toInt_ofNat_of_lt (by omega)]

variable (M : MySql)

theorem date_tmDate : M.date (tmDate t.tm) = some t.date := by
  rw [tmDate_tm]
  exact M.date_eq t.date t.year_ge t.year_le

theorem time_tmTime : M.time (tmTime t.tm) = some (t.time.seconds : Int) := by
  have hhour := t.time.hour_lt
  rw [tmTime_tm]
  exact M.time_eq _ _ _ (by omega) t.time.min_lt t.time.sec_lt

/-- The texts of two dates are the same only if the dates are. -/
theorem tmDate_eq_iff (s t : Stamp) : tmDate s.tm = tmDate t.tm ↔ s.date = t.date := by
  constructor
  · intro h
    have hs := s.date_tmDate (mySql none)
    rw [h, t.date_tmDate] at hs
    exact (Option.some.inj hs).symm
  · intro h
    rw [tmDate_tm, tmDate_tm, h]

end Stamp

/-! ## What the clauses select -/

section Selects

variable (M : MySql) (row t : Stamp)

theorem holds_dateEq : (Cond.dateEq (tmDate t.tm)).Holds M row ↔ row.date = t.date := by
  rw [Cond.Holds, t.date_tmDate, Option.some.injEq, eq_comm]

theorem holds_timeGe :
    (Cond.timeGe (tmTime t.tm)).Holds M row ↔ t.time.seconds ≤ row.time.seconds := by
  unfold Cond.Holds
  rw [t.time_tmTime]
  simp only [Option.some.injEq, exists_eq_left', Nat.cast_le]

theorem holds_timeLe :
    (Cond.timeLe (tmTime t.tm)).Holds M row ↔ row.time.seconds ≤ t.time.seconds := by
  unfold Cond.Holds
  rw [t.time_tmTime]
  simp only [Option.some.injEq, exists_eq_left', Nat.cast_le]

/-- The rows of one day. -/
theorem holds_duration_of_eq {start stop : Stamp} (h : start.date = stop.date) :
    (mysqlFetchDurationStats start.tm stop.tm).Holds M row ↔
      row.date = start.date ∧ start.time.seconds ≤ row.time.seconds ∧
        row.time.seconds ≤ stop.time.seconds := by
  rw [mysqlFetchDurationStats, if_pos ((Stamp.tmDate_eq_iff start stop).mpr h)]
  show (Cond.dateEq _).Holds M row ∧ (Cond.timeGe _).Holds M row ∧ (Cond.timeLe _).Holds M row ↔ _
  rw [holds_dateEq, holds_timeGe, holds_timeLe]

/-- The rows of the first and of the last day. -/
theorem holds_duration_of_ne {start stop : Stamp} (h : start.date ≠ stop.date) :
    (mysqlFetchDurationStats start.tm stop.tm).Holds M row ↔
      row.date = start.date ∧ start.time.seconds ≤ row.time.seconds ∨
        row.date = stop.date ∧ row.time.seconds ≤ stop.time.seconds := by
  rw [mysqlFetchDurationStats, if_neg (mt (Stamp.tmDate_eq_iff start stop).mp h)]
  show ((Cond.dateEq _).Holds M row ∧ (Cond.timeGe _).Holds M row) ∨
    ((Cond.dateEq _).Holds M row ∧ (Cond.timeLe _).Holds M row) ↔ _
  rw [holds_dateEq, holds_dateEq, holds_timeGe, holds_timeLe]

theorem Stamp.between_iff {start stop : Stamp} :
    start.seconds ≤ row.seconds ∧ row.seconds ≤ stop.seconds ↔
      (start.date.dayNumber < row.date.dayNumber ∨
        start.date = row.date ∧ start.time.seconds ≤ row.time.seconds) ∧
      (row.date.dayNumber < stop.date.dayNumber ∨
        row.date = stop.date ∧ row.time.seconds ≤ stop.time.seconds) := by
  rw [DateTime.seconds_le_iff, DateTime.seconds_le_iff]

theorem durationSelects_of_eq {start stop : Stamp} (h : stop.date = start.date) :
    DurationSelects M start stop := by
  intro row
  rw [holds_duration_of_eq M row h.symm, row.between_iff, h]
  constructor
  · rintro ⟨hdate, hge, hle⟩
    exact ⟨Or.inr ⟨hdate.symm, hge⟩, Or.inr ⟨hdate, hle⟩⟩
  · rintro ⟨hlt | ⟨hdate, hge⟩, hlt' | ⟨hdate', hle⟩⟩
    · exact absurd hlt' (Nat.lt_asymm hlt)
    · exact absurd (hdate' ▸ hlt) (lt_irrefl _)
    · exact absurd (hdate ▸ hlt') (lt_irrefl _)
    · exact ⟨hdate', hge, hle⟩

theorem durationSelects_of_next {start stop : Stamp} (h : stop.date = start.date.next) :
    DurationSelects M start stop := by
  intro row
  have hnext := start.date.dayNumber_next
  have hne : start.date ≠ stop.date := by
    intro heq
    rw [← h, ← heq] at hnext
    omega
  rw [holds_duration_of_ne M row hne, row.between_iff, h, hnext]
  constructor
  · rintro (⟨hdate, hge⟩ | ⟨hdate, hle⟩)
    · refine ⟨Or.inr ⟨hdate.symm, hge⟩, Or.inl ?_⟩
      rw [hdate]
      exact Nat.lt_succ_self _
    · refine ⟨Or.inl ?_, Or.inr ⟨hdate, hle⟩⟩
      rw [hdate, hnext]
      exact Nat.lt_succ_self _
  · rintro ⟨hlt | ⟨hdate, hge⟩, hlt' | ⟨hdate', hle⟩⟩
    · omega
    · exact Or.inr ⟨hdate', hle⟩
    · exact Or.inl ⟨hdate.symm, hge⟩
    · exact Or.inl ⟨hdate.symm, hge⟩

/-- **Days in between are missed.** -/
theorem not_durationSelects {start stop : Stamp} (hle : start.seconds ≤ stop.seconds)
    (hne : stop.date ≠ start.date) (hnext : stop.date ≠ start.date.next) :
    ¬ DurationSelects M start stop := by
  intro h
  have hnumber := start.date.dayNumber_next
  have hlt : start.date.next.dayNumber < stop.date.dayNumber := by
    have hne' : start.date.next.dayNumber ≠ stop.date.dayNumber := fun heq =>
      hnext (Date.dayNumber_injective heq).symm
    rcases (DateTime.seconds_le_iff _ _).mp hle with hlt | ⟨heq, -⟩
    · omega
    · exact absurd heq.symm hne
  have hstep : start.date.dayNumber ≤ start.date.next.dayNumber := by omega
  have hlow := Date.year_le_of_dayNumber_le hstep
  have hhigh := Date.year_le_of_dayNumber_le hlt.le
  -- midnight of the day after the first one
  let row : Stamp :=
    { date := start.date.next
      time := Time.ofSeconds 0 (by decide)
      year_ge := le_trans start.year_ge hlow
      year_le := le_trans hhigh stop.year_le }
  have hselected : (mysqlFetchDurationStats start.tm stop.tm).Holds M row := by
    rw [h, row.between_iff]
    refine ⟨Or.inl ?_, Or.inl hlt⟩
    show start.date.dayNumber < start.date.next.dayNumber
    omega
  rw [holds_duration_of_ne _ _ (Ne.symm hne)] at hselected
  rcases hselected with ⟨hdate, -⟩ | ⟨hdate, -⟩
  · have hsame : start.date.next = start.date := hdate
    rw [hsame] at hnumber
    omega
  · exact hnext (Eq.symm hdate)

/-! ## The second before -/

theorem holds_point_iff :
    (mysqlFetchPointStats t.tm).Holds M row ↔ row.date = t.date ∧
      ((M.time (timeBefore t.tm) = some (row.time.seconds : Int) ∨
        t.time.seconds = row.time.seconds) ∨
        M.time (timeAfter t.tm) = some (row.time.seconds : Int)) := by
  show (Cond.dateEq _).Holds M row ∧
    ((M.time _ = _ ∨ M.time (tmTime t.tm) = _) ∨ M.time _ = _) ↔ _
  rw [holds_dateEq, t.time_tmTime, Option.some.injEq, Nat.cast_inj]

/-- `tm_sec` and `tm_min` of a time stamp are zero, or 59, where its second and its minute are. -/
theorem ofNat_eq_iff {n k : Nat} (hn : n < 60) (hk : k < 60) : Int32.ofNat n = Int32.ofNat k ↔
    n = k := by
  rw [← Int32.toInt_inj, Int32.toInt_ofNat_of_lt (by omega), Int32.toInt_ofNat_of_lt (by omega)]
  omega

/-- The literal, in the numbers of the time stamp. -/
theorem timeBefore_tm :
    timeBefore t.tm
      = if t.time.sec ≠ 0 then
          if t.time.min ≠ 0 then timeText (t.time.hour - 1) 59 59 else timeText t.time.hour (-1) 59
        else timeText t.time.hour t.time.min (-1) := by
  have hhour := t.time.hour_lt
  have hmin := t.time.min_lt
  have hsec := t.time.sec_lt
  have hsec0 : Int32.ofNat t.time.sec = 0 ↔ t.time.sec = 0 := ofNat_eq_iff hsec (by decide)
  have hmin0 : Int32.ofNat t.time.min = 0 ↔ t.time.min = 0 := ofNat_eq_iff hmin (by decide)
  unfold timeBefore Stamp.tm
  simp only [ne_eq, hsec0, hmin0]
  rw [toInt_ofNat_sub_one (by omega), toInt_ofNat_sub_one (by omega),
    toInt_ofNat_sub_one (by omega), Int32.toInt_ofNat_of_lt (by omega),
    Int32.toInt_ofNat_of_lt (by omega)]
  split
  · split
    · rfl
    · next hm =>
        rw [not_not.mp hm]
        rfl
  · next hs =>
      rw [not_not.mp hs]
      rfl

/-- **A literal that is a time is not the second before.** -/
theorem time_timeBefore_ne (hhour : t.time.hour ≠ 0) (hmin : t.time.min ≠ 0) (hsec : t.time.sec ≠ 0) :
    M.time (timeBefore t.tm) ≠ some ((t.time.seconds - 1 : Nat) : Int) := by
  have hlt := t.time.hour_lt
  have hcast : (t.time.hour : Int) - 1 = ((t.time.hour - 1 : Nat) : Int) := by omega
  have htime : M.time (timeText ((t.time.hour - 1 : Nat) : Int) 59 59) = _ :=
    M.time_eq (t.time.hour - 1) 59 59 (by omega) (by decide) (by decide)
  rw [timeBefore_tm, if_pos hsec, if_pos hmin, hcast, htime, ne_eq, Option.some.injEq, Nat.cast_inj,
    Time.seconds]
  omega

/-- The second after. -/
theorem time_timeAfter :
    M.time (timeAfter t.tm) = some ((t.time.seconds + 1 : Nat) : Int) := by
  have hhour := t.time.hour_lt
  have hmin := t.time.min_lt
  have hsec := t.time.sec_lt
  have hsec59 : Int32.ofNat t.time.sec = 59 ↔ t.time.sec = 59 := ofNat_eq_iff hsec (by decide)
  have hmin59 : Int32.ofNat t.time.min = 59 ↔ t.time.min = 59 := ofNat_eq_iff hmin (by decide)
  unfold timeAfter Stamp.tm
  simp only [hsec59, hmin59]
  rw [toInt_ofNat_add_one (by omega), toInt_ofNat_add_one (by omega),
    toInt_ofNat_add_one (by omega), Int32.toInt_ofNat_of_lt (by omega),
    Int32.toInt_ofNat_of_lt (by omega)]
  split
  · rename_i hs
    split
    · rename_i hm
      have hvalue : (t.time.hour + 1) * 3600 + 0 * 60 + 0 = t.time.seconds + 1 := by
        rw [Time.seconds]
        omega
      rw [← hvalue]
      exact M.time_eq (t.time.hour + 1) 0 0 (by omega) (by omega) (by omega)
    · have hvalue : t.time.hour * 3600 + (t.time.min + 1) * 60 + 0 = t.time.seconds + 1 := by
        rw [Time.seconds]
        omega
      rw [← hvalue]
      exact M.time_eq t.time.hour (t.time.min + 1) 0 (by omega) (by omega) (by omega)
  · have hvalue : t.time.hour * 3600 + t.time.min * 60 + (t.time.sec + 1) =
        t.time.seconds + 1 := by
      rw [Time.seconds]
      omega
    rw [← hvalue]
    exact M.time_eq t.time.hour t.time.min (t.time.sec + 1) (by omega) (by omega) (by omega)

/-! ## The ends of a day -/

theorem Stamp.firstDay_le : firstDay.dayNumber ≤ t.date.dayNumber :=
  Date.dayNumber_le_of_first rfl rfl t.year_ge

theorem Stamp.le_lastDay : t.date.dayNumber ≤ lastDay.dayNumber :=
  Date.dayNumber_le_of_last rfl rfl t.year_le

/-- The same date at another time. -/
def Stamp.at (n : Nat) (hn : n < 86400) : Stamp := { t with time := Time.ofSeconds n hn }

theorem Stamp.seconds_at {n : Nat} (hn : n < 86400) :
    (t.at n hn).seconds = t.date.dayNumber * 86400 + n := by
  rw [DateTime.seconds]
  exact congrArg _ (Time.seconds_ofSeconds n hn)

/-- There is a row in the last second of the day before. -/
theorem Stamp.exists_before (h : t.date ≠ firstDay) :
    ∃ row : Stamp, row.date ≠ t.date ∧ row.seconds + 1 = t.date.dayNumber * 86400 := by
  have hge := t.year_ge
  have hle := t.year_le
  obtain ⟨e, he, hyear, hsame⟩ := t.date.exists_before (Or.inr (by omega))
  have hge' : 1000 ≤ e.year := by
    by_cases hfirst : t.date.month = 1 ∧ t.date.day = 1
    · by_cases hlt : 1000 < t.date.year
      · omega
      · -- only 1000-01-01 is left
        refine absurd (Date.dayNumber_injective (le_antisymm ?_ t.firstDay_le)) h
        exact Date.dayNumber_le_of_first hfirst.1 hfirst.2 (Nat.le_of_not_lt hlt)
    · rw [hsame hfirst]
      exact hge
  have hle' : e.year ≤ 9999 := (Date.year_le_of_dayNumber_le (by omega)).trans hle
  refine ⟨⟨⟨e, Time.ofSeconds 86399 (by decide)⟩, hge', hle'⟩, ?_, ?_⟩
  · intro heq
    have heq' : e = t.date := heq
    rw [heq'] at he
    omega
  · rw [DateTime.seconds, Time.seconds_ofSeconds, ← he]
    exact (Nat.add_one_mul e.dayNumber 86400).symm

/-- There is a row in the first second of the day after. -/
theorem Stamp.exists_after (h : t.date ≠ lastDay) :
    ∃ row : Stamp, row.date ≠ t.date ∧ row.seconds = (t.date.dayNumber + 1) * 86400 := by
  have hge := t.year_ge
  have hle := t.year_le
  have hnext := t.date.dayNumber_next
  have hle' : t.date.next.year ≤ 9999 := by
    by_cases hlast : t.date.month = 12 ∧ t.date.day = 31
    · by_cases hlt : t.date.year < 9999
      · have hyear := t.date.year_next_le
        omega
      · -- only 9999-12-31 is left
        refine absurd (Date.dayNumber_injective (le_antisymm t.le_lastDay ?_)) h
        exact Date.dayNumber_le_of_last hlast.1 hlast.2 (Nat.le_of_not_lt hlt)
    · rw [Date.year_next_of_ne hlast]
      exact hle
  have hge' : 1000 ≤ t.date.next.year := hge.trans (Date.year_le_of_dayNumber_le (by omega))
  refine ⟨⟨⟨t.date.next, Time.ofSeconds 0 (by decide)⟩, hge', hle'⟩, ?_, ?_⟩
  · intro heq
    have heq' : t.date.next = t.date := heq
    rw [heq'] at hnext
    omega
  · rw [DateTime.seconds, Time.seconds_ofSeconds, hnext, Nat.add_zero]

/-! ## The exact condition -/

theorem pointRight_of_selects (h : PointSelects M t) : PointRight M t := by
  have hlt := t.time.seconds_lt
  have hsec : t.seconds = t.date.dayNumber * 86400 + t.time.seconds := rfl
  unfold PointRight
  split
  · next hzero =>
      constructor
      · by_contra hfirst
        obtain ⟨row, hne, hrow⟩ := t.exists_before hfirst
        exact hne ((holds_point_iff M row t).mp ((h row).mpr (by omega))).1
      · intro v hv hread
        have hholds : (mysqlFetchPointStats t.tm).Holds M (t.at v hv) := by
          rw [holds_point_iff]
          refine ⟨rfl, Or.inl (Or.inl ?_)⟩
          rw [hread]
          exact congrArg _ (congrArg _ (Time.seconds_ofSeconds v hv).symm)
        obtain ⟨hle, -⟩ := (h _).mp hholds
        rw [t.seconds_at hv] at hle
        omega
  · next hzero =>
      constructor
      · -- the row of the second before, which is on the same day
        have hn : t.time.seconds - 1 < 86400 := by omega
        have hrow : (t.at (t.time.seconds - 1) hn).time.seconds = t.time.seconds - 1 :=
          Time.seconds_ofSeconds _ hn
        have hnear := (h (t.at (t.time.seconds - 1) hn)).mpr (by
          rw [t.seconds_at hn]
          omega)
        obtain ⟨-, hholds⟩ := (holds_point_iff _ _ _).mp hnear
        rw [time_timeAfter, hrow] at hholds
        rcases hholds with (hbefore | hat) | hafter
        · exact hbefore
        · omega
        · rw [Option.some.injEq, Nat.cast_inj] at hafter
          omega
      · intro hend
        by_contra hlast
        obtain ⟨row, hne, hrow⟩ := t.exists_after hlast
        exact hne ((holds_point_iff M row t).mp ((h row).mpr (by omega))).1

theorem pointSelects_of_right (h : PointRight M t) : PointSelects M t := by
  intro row
  have hlt := t.time.seconds_lt
  have hlt' := row.time.seconds_lt
  have hfirst := row.firstDay_le
  have hlast := row.le_lastDay
  have hsec : t.seconds = t.date.dayNumber * 86400 + t.time.seconds := rfl
  have hsec' : row.seconds = row.date.dayNumber * 86400 + row.time.seconds := rfl
  rw [holds_point_iff, time_timeAfter, ← Date.dayNumber_injective.eq_iff, Option.some.injEq,
    Nat.cast_inj]
  unfold PointRight at h
  split at h
  · next hzero =>
      obtain ⟨hday, hread⟩ := h
      rw [← hday] at hfirst
      constructor
      · rintro ⟨hdate, (hbefore | hat) | hafter⟩
        · have hle := hread _ hlt' hbefore
          omega
        · omega
        · omega
      · intro hnear
        exact ⟨by omega, by omega⟩
  · next hzero =>
      obtain ⟨hread, hend⟩ := h
      rw [hread, Option.some.injEq, Nat.cast_inj]
      have hday : t.time.seconds = 86399 → row.date.dayNumber ≤ t.date.dayNumber := by
        intro heq
        rw [hend heq]
        exact hlast
      constructor
      · rintro ⟨hdate, (hbefore | hat) | hafter⟩ <;> omega
      · intro hnear
        exact ⟨by omega, by omega⟩

end Selects

/-- **What the clauses select.** For every MySQL, the one for a point in time selects what it should
if the literal of the second before is read so and no second is on another day, and the one for a
duration does if it ends on the day it starts on or on the next. -/
theorem historyQueries_iff (M : MySql) (start stop : Stamp) :
    (PointSelects M start ↔ PointRight M start) ∧
    (start.seconds ≤ stop.seconds →
      (DurationSelects M start stop ↔
        stop.date = start.date ∨ stop.date = start.date.next)) := by
  refine ⟨⟨pointRight_of_selects M start, pointSelects_of_right M start⟩, ?_⟩
  intro hle
  constructor
  · intro h
    by_contra hne
    rw [not_or] at hne
    exact not_durationSelects M hle hne.1 hne.2 h
  · rintro (heq | hnext)
    · exact durationSelects_of_eq M heq
    · exact durationSelects_of_next M hnext

/-- 9:05:30 on a day of June 2015. -/
def june2015 (day : Nat) (hpos : 1 ≤ day) (hle : day ≤ 30) : Stamp where
  date := ⟨2015, 6, day, by decide, by decide, hpos, hle⟩
  time := ⟨9, 5, 30, by decide, by decide, by decide⟩
  year_ge := Nat.le_add_left 1000 1015
  year_le := Nat.le_add_left 2015 7984

/-- 2015-6-9, 9:05:30 -/
def june9 : Stamp := june2015 9 (by decide) (by decide)

/-- 2015-6-10, 9:05:30 -/
def june10 : Stamp := june2015 10 (by decide) (by decide)

/-- 2015-6-11, 9:05:30 -/
def june11 : Stamp := june2015 11 (by decide) (by decide)

/-- A point in time, and two days from there on. The literal is `8:59:59`. -/
theorem not_historyQueries :
    (∀ M : MySql, ¬ PointSelects M june9) ∧ june9.seconds ≤ june11.seconds
      ∧ ∀ M : MySql, ¬ DurationSelects M june9 june11 := by
  have hle : june9.seconds ≤ june11.seconds := by
    rw [DateTime.seconds_le_iff]
    exact Or.inl (Date.dayNumber_lt_of_day rfl rfl (by decide))
  refine ⟨fun M h => ?_, hle, fun M => not_durationSelects M hle ?_ ?_⟩
  · have hright := pointRight_of_selects M june9 h
    unfold PointRight at hright
    rw [if_neg (by decide)] at hright
    exact time_timeBefore_ne M june9 (by decide) (by decide) (by decide) hright.1
  · intro h
    exact absurd (congrArg Date.day h) (by decide)
  · intro h
    exact absurd (congrArg Date.day h) (by decide)

/-- 2015-6-9, 0:00:01 -/
def june9Start : Stamp := { june9 with time := ⟨0, 0, 1, by decide, by decide, by decide⟩ }

/-- From one day to the next; and the first second of a day, if MySQL reads `0:-1:59` as 0:00:00. -/
theorem historyQueries_iff_tomorrow :
    (june9.seconds ≤ june10.seconds ∧ DurationSelects (mySql none) june9 june10)
      ∧ PointSelects (mySql (some 0)) june9Start := by
  have hle : june9.seconds ≤ june10.seconds := by
    rw [DateTime.seconds_le_iff]
    exact Or.inl (Date.dayNumber_lt_of_day rfl rfl (by decide))
  refine ⟨⟨hle, ((historyQueries_iff (mySql none) june9 june10).2 hle).mpr (Or.inr rfl)⟩, ?_⟩
  refine (historyQueries_iff (mySql (some 0)) june9Start june10).1.mpr ?_
  unfold PointRight
  rw [if_neg (by decide)]
  refine ⟨?_, fun h => absurd h (by decide)⟩
  rw [timeBefore_tm, if_pos (by decide), if_neg (by decide)]
  exact mySql_time_of_neg (some 0) (Or.inr (Or.inl (by decide)))

end Monitor
