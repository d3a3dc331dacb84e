import PolarBear.Py.DateTime

/-!
# `datetime` and the calendar

The constructor, `replace`, comparison and the subtraction of a day or an hour.
Naive times are compared as the tuples of their numbers (`DateFields.key`). Against
that stands the calendar: the count of the days and the instant on the time line
(`DateFields.instant`), in microseconds from the beginning of year 0. The two orders
are one: `key_lt_iff`.
-/

namespace PolarBear.Py

/-! ## The constructor -/

/-- An argument that has to be a C `int`. -/
def cInt (n : Int) : Except PyError Int :=
  if n < -2 ^ 63 ∨ 2 ^ 63 ≤ n then
    .error (.of .overflowError "Python int too large to convert to C long")
  else if 2 ^ 31 ≤ n then .error (.of .overflowError "signed integer is greater than maximum")
  else if n < -2 ^ 31 then .error (.of .overflowError "signed integer is less than minimum")
  else .ok n

theorem valid_of_args {year month day hour minute second microsecond : Int}
    (hyear : 1 ≤ year ∧ year ≤ 9999) (hmonth : 1 ≤ month ∧ month ≤ 12)
    (hday : 1 ≤ day ∧ day ≤ daysInMonth year.toNat month.toNat) (hhour : 0 ≤ hour ∧ hour ≤ 23)
    (hminute : 0 ≤ minute ∧ minute ≤ 59) (hsecond : 0 ≤ second ∧ second ≤ 59)
    (hmicrosecond : 0 ≤ microsecond ∧ microsecond ≤ 999999) :
    (DateFields.mk year.toNat month.toNat day.toNat hour.toNat minute.toNat second.toNat
      microsecond.toNat).Valid := by
  constructor <;> simp only <;> omega

/-- `datetime(year, month, day, hour, minute, second, microsecond)` of C `int`s. -/
def DateTime.ofArgs (year month day hour minute second microsecond : Int) (tzinfo : Option Int) :
    Except PyError DateTime :=
  if hyear : 1 ≤ year ∧ year ≤ 9999 then
    if hmonth : 1 ≤ month ∧ month ≤ 12 then
      if hday : 1 ≤ day ∧ day ≤ daysInMonth year.toNat month.toNat then
        if hhour : 0 ≤ hour ∧ hour ≤ 23 then
          if hminute : 0 ≤ minute ∧ minute ≤ 59 then
            if hsecond : 0 ≤ second ∧ second ≤ 59 then
              if hmicrosecond : 0 ≤ microsecond ∧ microsecond ≤ 999999 then
                .ok ⟨⟨year.toNat, month.toNat, day.toNat, hour.toNat, minute.toNat, second.toNat,
                  microsecond.toNat⟩, tzinfo,
                  valid_of_args hyear hmonth hday hhour hminute hsecond hmicrosecond⟩
              else .error (.of .valueError "microsecond must be in 0..999999")
            else .error (.of .valueError "second must be in 0..59")
          else .error (.of .valueError "minute must be in 0..59")
        else .error (.of .valueError "hour must be in 0..23")
      else .error (.of .valueError "day is out of range for month")
    else .error (.of .valueError "month must be in 1..12")
  else .error (.of .valueError "year is out of range")

/-- `datetime.datetime(year=year, month=month, day=day, hour=hour)`. -/
def datetime (year month day hour : Int) : Except PyError DateTime := do
  let year ← cInt year
  let month ← cInt month
  let day ← cInt day
  let hour ← cInt hour
  DateTime.ofArgs year month day hour 0 0 0 none

/-- `t.replace(minute=minute, second=0, microsecond=0)`. -/
def DateTime.replaceMinute (t : DateTime) (minute : Int) : Except PyError DateTime := do
  let minute ← cInt minute
  DateTime.ofArgs t.fields.year t.fields.month t.fields.day t.fields.hour minute 0 0 t.tzinfo

theorem cInt_ok {n : Int} (hlow : 0 ≤ n) (hhigh : n < 10000) : cInt n = .ok n := by
  unfold cInt
  rw [if_neg (by omega), if_neg (by omega), if_neg (by omega)]

theorem DateTime.ofArgs_valid {f : DateFields} (h : f.Valid) (tzinfo : Option Int) :
    DateTime.ofArgs f.year f.month f.day f.hour f.minute f.second f.microsecond tzinfo =
      .ok ⟨f, tzinfo, h⟩ := by
  obtain ⟨hyear, hmonth, hday, hhour, hminute, hsecond, hmicrosecond⟩ := h
  unfold DateTime.ofArgs
  rw [dif_pos ⟨by omega, by omega⟩, dif_pos ⟨by omega, by omega⟩,
    dif_pos ⟨by omega, by simp only [Int.toNat_natCast]; omega⟩, dif_pos ⟨by omega, by omega⟩,
    dif_pos ⟨by omega, by omega⟩, dif_pos ⟨by omega, by omega⟩, dif_pos ⟨by omega, by omega⟩]
  rfl

/-! ## The calendar -/

def daysInYear (year : Nat) : Nat := if isLeapYear year then 366 else 365

/-- The days of the years before. -/
def daysBeforeYear : Nat → Nat
  | 0 => 0
  | year + 1 => daysBeforeYear year + daysInYear year

/-- The days of the months before, in the year. -/
def daysBeforeMonth (year : Nat) : Nat → Nat
  | 0 => 0
  | 1 => 0
  | month + 2 => daysBeforeMonth year (month + 1) + daysInMonth year (month + 1)

/-- The count of the days. -/
def DateFields.ordinal (f : DateFields) : Nat :=
  daysBeforeYear f.year + daysBeforeMonth f.year f.month + f.day

def hourLength : Nat := 3600000000
def dayLength : Nat := 86400000000

/-- The microseconds of the day. -/
def DateFields.clock (f : DateFields) : Nat :=
  ((f.hour * 60 + f.minute) * 60 + f.second) * 1000000 + f.microsecond

/-- The place on the time line. -/
def DateFields.instant (f : DateFields) : Nat := f.ordinal * dayLength + f.clock

/-- A day of the calendar and a time of day, in a year that a `datetime` may not reach. -/
structure DateFields.Proper (f : DateFields) : Prop where
  month : 1 ≤ f.month ∧ f.month ≤ 12
  day : 1 ≤ f.day ∧ f.day ≤ daysInMonth f.year f.month
  hour : f.hour < 24
  minute : f.minute < 60
  second : f.second < 60
  microsecond : f.microsecond < 1000000

theorem DateFields.Valid.proper {f : DateFields} (h : f.Valid) : f.Proper :=
  ⟨h.month, h.day, h.hour, h.minute, h.second, h.microsecond⟩

theorem DateFields.Proper.valid {f : DateFields} (h : f.Proper)
    (hyear : 1 ≤ f.year ∧ f.year ≤ 9999) : f.Valid :=
  ⟨hyear, h.month, h.day, h.hour, h.minute, h.second, h.microsecond⟩

theorem le_daysInMonth (year month : Nat) : 28 ≤ daysInMonth year month := by
  unfold daysInMonth
  split
  · split <;> omega
  · split <;> omega

theorem daysBeforeMonth_succ (year : Nat) {month : Nat} (h : 1 ≤ month) :
    daysBeforeMonth year (month + 1) = daysBeforeMonth year month + daysInMonth year month := by
  obtain ⟨month, rfl⟩ := Nat.exists_eq_succ_of_ne_zero (by omega : month ≠ 0)
  rfl

theorem daysBeforeMonth_mono (year : Nat) {m n : Nat} (hm : 1 ≤ m) (h : m ≤ n) :
    daysBeforeMonth year m ≤ daysBeforeMonth year n := by
  induction h with
  | refl => exact Nat.le_refl _
  | step h ih =>
    rw [daysBeforeMonth_succ year (Nat.le_trans hm h)]
    omega

/-- The year is over with its twelfth month. -/
theorem daysBeforeMonth_thirteen (year : Nat) : daysBeforeMonth year 13 = daysInYear year := by
  show 0 + daysInMonth year 1 + daysInMonth year 2 + daysInMonth year 3 + daysInMonth year 4 +
    daysInMonth year 5 + daysInMonth year 6 + daysInMonth year 7 + daysInMonth year 8 +
    daysInMonth year 9 + daysInMonth year 10 + daysInMonth year 11 + daysInMonth year 12 = _
  simp only [daysInMonth, daysInYear]
  cases isLeapYear year <;> rfl

theorem daysBeforeYear_mono {y z : Nat} (h : y ≤ z) : daysBeforeYear y ≤ daysBeforeYear z := by
  induction h with
  | refl => exact Nat.le_refl _
  | step h ih =>
    rw [daysBeforeYear]
    omega

/-- A day lies in its month. -/
theorem DateFields.Proper.month_day_le {f : DateFields} (h : f.Proper) {month : Nat}
    (hmonth : f.month < month) :
    daysBeforeMonth f.year f.month + f.day ≤ daysBeforeMonth f.year month := by
  have hmono := daysBeforeMonth_mono f.year (by omega : 1 ≤ f.month + 1) hmonth
  rw [daysBeforeMonth_succ f.year h.month.1] at hmono
  have hday := h.day.2
  omega

/-- A day lies in its year. -/
theorem DateFields.Proper.ordinal_le {f : DateFields} (h : f.Proper) {year : Nat}
    (hyear : f.year < year) : f.ordinal ≤ daysBeforeYear year := by
  have hmono := daysBeforeYear_mono hyear
  rw [Nat.succ_eq_add_one, daysBeforeYear] at hmono
  have hmonth := h.month_day_le (by have := h.month.2; omega : f.month < 13)
  rw [daysBeforeMonth_thirteen] at hmonth
  unfold DateFields.ordinal
  omega

theorem DateFields.Proper.clock_lt {f : DateFields} (h : f.Proper) : f.clock < dayLength := by
  obtain ⟨-, -, hhour, hminute, hsecond, hmicrosecond⟩ := h
  simp only [DateFields.clock, dayLength]
  omega

theorem instant_lt_of_ordinal {f g : DateFields} (hf : f.Proper) (h : f.ordinal < g.ordinal) :
    f.instant < g.instant := by
  have hclock := hf.clock_lt
  simp only [DateFields.instant, dayLength] at hclock ⊢
  omega

/-- The days of a month are counted from its first. -/
theorem ordinal_lt_of_month {f g : DateFields} (hf : f.Proper) (hg : g.Proper)
    (hyear : f.year = g.year) (h : f.month < g.month) : f.ordinal < g.ordinal := by
  have hle := hf.month_day_le h
  have hday := hg.day.1
  unfold DateFields.ordinal
  rw [hyear] at hle ⊢
  omega

theorem ordinal_lt_of_year {f g : DateFields} (hf : f.Proper) (hg : g.Proper)
    (h : f.year < g.year) : f.ordinal < g.ordinal := by
  have hle := hf.ordinal_le h
  have hday := hg.day.1
  unfold DateFields.ordinal at hle ⊢
  omega

/-! ## Comparison -/

/-- The numbers in the order of their weight. -/
def DateFields.key (f : DateFields) : List Nat :=
  [f.year, f.month, f.day, f.hour, f.minute, f.second, f.microsecond]

theorem instant_lt_of_key {f g : DateFields} (hf : f.Proper) (hg : g.Proper)
    (h : f.key < g.key) : f.instant < g.instant := by
  simp only [DateFields.key, List.cons_lt_cons_iff, List.not_lt_nil, and_false, or_false] at h
  rcases h with hyear | ⟨hyear, hmonth | ⟨hmonth, hday | ⟨hday, h⟩⟩⟩
  · exact instant_lt_of_ordinal hf (ordinal_lt_of_year hf hg hyear)
  · exact instant_lt_of_ordinal hf (ordinal_lt_of_month hf hg hyear hmonth)
  · apply instant_lt_of_ordinal hf
    unfold DateFields.ordinal
    rw [hyear, hmonth]
    omega
  · obtain ⟨-, -, -, hminute, hsecond, hmicrosecond⟩ := hf
    simp only [DateFields.instant, DateFields.ordinal, DateFields.clock, hyear, hmonth, hday]
    omega

/-- **The two orders are one.** -/
theorem key_lt_iff {f g : DateFields} (hf : f.Proper) (hg : g.Proper) :
    f.key < g.key ↔ f.instant < g.instant := by
  constructor
  · exact instant_lt_of_key hf hg
  · intro h
    by_contra hge
    rcases List.le_iff_lt_or_eq.mp (List.not_lt.mp hge) with hgt | heq
    · have := instant_lt_of_key hg hf hgt
      omega
    · simp only [DateFields.key, List.cons.injEq] at heq
      obtain ⟨hyear, hmonth, hday, hhour, hminute, hsecond, hmicrosecond, -⟩ := heq
      simp only [DateFields.instant, DateFields.ordinal, DateFields.clock, hyear, hmonth, hday,
        hhour, hminute, hsecond, hmicrosecond] at h
      exact absurd h (Nat.lt_irrefl _)

/-- `t >= u`. Times with different zones are compared in UTC. -/
def DateTime.ge (t u : DateTime) : Except PyError Bool :=
  match t.tzinfo, u.tzinfo with
  | none, none => .ok (decide (¬ t.fields.key < u.fields.key))
  | some z, some w =>
    if z = w then .ok (decide (¬ t.fields.key < u.fields.key))
    else .ok (decide ((u.fields.instant : Int) - w * 60000000 ≤ t.fields.instant - z * 60000000))
  | _, _ => .error (.of .typeError "can't compare offset-naive and offset-aware datetimes")

theorem DateTime.ge_of_same_zone {t u : DateTime} (h : t.tzinfo = u.tzinfo) :
    t.ge u = .ok (decide (u.fields.instant ≤ t.fields.instant)) := by
  have hkey := key_lt_iff t.valid.proper u.valid.proper
  have hle : (¬ t.fields.key < u.fields.key) ↔ u.fields.instant ≤ t.fields.instant := by
    rw [hkey, Nat.not_lt]
  unfold DateTime.ge
  rw [h]
  cases u.tzinfo with
  | none => simp only [hle]
  | some z => simp only [hle, if_true]

/-! ## A day and an hour before -/

def DateFields.dayBefore (f : DateFields) : DateFields :=
  if 1 < f.day then { f with day := f.day - 1 }
  else if 1 < f.month then
    { f with month := f.month - 1, day := daysInMonth f.year (f.month - 1) }
  else { f with year := f.year - 1, month := 12, day := 31 }

def DateFields.hourBefore (f : DateFields) : DateFields :=
  if 1 ≤ f.hour then { f with hour := f.hour - 1 }
  else { f.dayBefore with hour := 23 }

/-- A result of `datetime` arithmetic. -/
def DateTime.result (f : DateFields) (tzinfo : Option Int) : Except PyError DateTime :=
  if h : f.Valid then .ok ⟨f, tzinfo, h⟩
  else .error (.of .overflowError "date value out of range")

/-- `t - timedelta(days=1)`. -/
def DateTime.minusDay (t : DateTime) : Except PyError DateTime :=
  DateTime.result t.fields.dayBefore t.tzinfo

/-- `t - timedelta(hours=1)`. -/
def DateTime.minusHour (t : DateTime) : Except PyError DateTime :=
  DateTime.result t.fields.hourBefore t.tzinfo

theorem DateFields.dayBefore_proper {f : DateFields} (h : f.Proper) : f.dayBefore.Proper := by
  obtain ⟨hmonth, hday, hhour, hminute, hsecond, hmicrosecond⟩ := h
  unfold DateFields.dayBefore
  split
  · exact ⟨hmonth, ⟨by simp only; omega, by simp only; omega⟩, hhour, hminute, hsecond,
      hmicrosecond⟩
  · split
    · have hlength := le_daysInMonth f.year (f.month - 1)
      exact ⟨⟨by simp only; omega, by simp only; omega⟩, ⟨by simp only; omega, Nat.le_refl _⟩,
        hhour, hminute, hsecond, hmicrosecond⟩
    · exact ⟨⟨Nat.le_add_left 1 11, Nat.le_refl 12⟩, ⟨Nat.le_add_left 1 30, Nat.le_refl 31⟩, hhour,
        hminute, hsecond, hmicrosecond⟩

theorem DateFields.dayBefore_time (f : DateFields) :
    f.dayBefore.hour = f.hour ∧ f.dayBefore.minute = f.minute ∧ f.dayBefore.second = f.second ∧
      f.dayBefore.microsecond = f.microsecond := by
  unfold DateFields.dayBefore
  split
  · exact ⟨rfl, rfl, rfl, rfl⟩
  · split <;> exact ⟨rfl, rfl, rfl, rfl⟩

theorem DateFields.dayBefore_clock (f : DateFields) : f.dayBefore.clock = f.clock := by
  obtain ⟨hhour, hminute, hsecond, hmicrosecond⟩ := f.dayBefore_time
  simp only [DateFields.clock, hhour, hminute, hsecond, hmicrosecond]

theorem DateFields.dayBefore_year (f : DateFields) :
    f.year - 1 ≤ f.dayBefore.year ∧ f.dayBefore.year ≤ f.year := by
  unfold DateFields.dayBefore
  split
  · exact ⟨Nat.sub_le _ _, Nat.le_refl _⟩
  · split
    · exact ⟨Nat.sub_le _ _, Nat.le_refl _⟩
    · exact ⟨Nat.le_refl _, Nat.sub_le _ _⟩

theorem DateFields.dayBefore_ordinal {f : DateFields} (h : f.Proper) (hyear : 1 ≤ f.year) :
    f.dayBefore.ordinal + 1 = f.ordinal := by
  have hday := h.day.1
  have hmonth := h.month.1
  unfold DateFields.dayBefore
  split
  · simp only [DateFields.ordinal]
    omega
  · split
    · next hfirst hmonth' =>
      have hsucc := daysBeforeMonth_succ f.year (by omega : 1 ≤ f.month - 1)
      rw [Nat.sub_add_cancel hmonth] at hsucc
      simp only [DateFields.ordinal]
      omega
    · next hfirst hjanuary =>
      have hone : f.month = 1 := by omega
      obtain ⟨year, hsucc⟩ := Nat.exists_eq_add_of_le' hyear
      have hlast := daysBeforeMonth_thirteen year
      have hdecember : daysInMonth year 12 = 31 := rfl
      have hnone : daysBeforeMonth (year + 1) 1 = 0 := rfl
      rw [daysBeforeMonth_succ year (by decide : 1 ≤ 12), hdecember] at hlast
      simp only [DateFields.ordinal, hone, hsucc, Nat.add_sub_cancel, daysBeforeYear, hnone]
      omega

theorem DateFields.dayBefore_instant {f : DateFields} (h : f.Proper) (hyear : 1 ≤ f.year) :
    f.dayBefore.instant + dayLength = f.instant := by
  have hordinal := DateFields.dayBefore_ordinal h hyear
  simp only [DateFields.instant, DateFields.dayBefore_clock, dayLength]
  omega

theorem DateFields.hourBefore_proper {f : DateFields} (h : f.Proper) : f.hourBefore.Proper := by
  have hbefore := DateFields.dayBefore_proper h
  obtain ⟨hmonth, hday, hhour, hminute, hsecond, hmicrosecond⟩ := h
  unfold DateFields.hourBefore
  split
  · exact ⟨hmonth, hday, by simp only; omega, hminute, hsecond, hmicrosecond⟩
  · exact ⟨hbefore.month, hbefore.day, Nat.lt_succ_self 23, hbefore.minute, hbefore.second,
      hbefore.microsecond⟩

theorem DateFields.hourBefore_year (f : DateFields) :
    f.year - 1 ≤ f.hourBefore.year ∧ f.hourBefore.year ≤ f.year := by
  unfold DateFields.hourBefore
  split
  · exact ⟨Nat.sub_le _ _, Nat.le_refl _⟩
  · exact f.dayBefore_year

theorem DateFields.hourBefore_time (f : DateFields) :
    f.hourBefore.minute = f.minute ∧ f.hourBefore.second = f.second ∧
      f.hourBefore.microsecond = f.microsecond := by
  unfold DateFields.hourBefore
  split
  · exact ⟨rfl, rfl, rfl⟩
  · exact f.dayBefore_time.2

theorem DateFields.hourBefore_instant {f : DateFields} (h : f.Proper) (hyear : 1 ≤ f.year) :
    f.hourBefore.instant + hourLength = f.instant := by
  unfold DateFields.hourBefore
  split
  · simp only [DateFields.instant, DateFields.ordinal, DateFields.clock, hourLength]
    omega
  · next hmidnight =>
    have hinstant := DateFields.dayBefore_instant h hyear
    obtain ⟨-, hminute, hsecond, hmicrosecond⟩ := f.dayBefore_time
    have hhour : f.hour = 0 := by omega
    have hordinal : ({ f.dayBefore with hour := 23 } : DateFields).ordinal =
        f.dayBefore.ordinal := rfl
    have hlast : ({ f.dayBefore with hour := 23 } : DateFields).clock + hourLength =
        f.clock + dayLength := by
      simp only [DateFields.clock, hhour, hminute, hsecond, hmicrosecond, hourLength, dayLength]
      omega
    unfold DateFields.instant at hinstant ⊢
    rw [f.dayBefore_clock] at hinstant
    rw [hordinal]
    omega

end PolarBear.Py
