import PolarBear.Lib.Tiling
import PolarBear.Py.Builtins
import PolarBear.Py.Calendar

/-!
# `last_completed_audit_period`

Usage is audited by the hour, day, month or year, with an offset into the unit. The
function finds the last period that was over at a time: it builds the mark of the
time's own unit and goes back by one where that mark is not yet past. Each unit goes
back in a way of its own.

Against the four branches stand the marks of a unit on the time line
(`AuditUnit.marks`), and each branch returns their last period. The marks tile the
time line, so one period begins where the one before ends; where the code cannot go
back is the beginning of `datetime`: there is no year 0.
-/

namespace PolarBear.Utils

open PolarBear.Py PolarBear.Tiling

/-! ## The code -/

/-- The unit and its offset: `unit.split("@", 1)`. -/
def readUnit (conf : String) (unit : Option String) : Except PyError (String × Int) :=
  let unit := match unit with
    | some unit => if unit = "" then conf else unit
    | none => conf
  if unit.toList.contains '@' then
    match pyInt (afterFirst '@' unit) with
    | some offset => .ok (String.ofList (unit.toList.takeWhile (fun c => c != '@')), offset)
    | none => .error (.of .valueError
        ("invalid literal for int() with base 10: '" ++ afterFirst '@' unit ++ "'"))
  else .ok (unit, 0)

/-- The month before, by its year and number. -/
def monthBefore (year month : Int) : Int × Int :=
  if 1 ≥ month then (year - 1, 12 + (month - 1)) else (year, month - 1)

def monthPeriod (offset : Int) (rightnow : DateTime) : Except PyError (DateTime × DateTime) := do
  let offset := if offset = 0 then 1 else offset
  let this ← datetime rightnow.fields.year rightnow.fields.month offset 0
  let future ← this.ge rightnow
  let end_ ←
    if future then
      let before := monthBefore rightnow.fields.year rightnow.fields.month
      datetime before.1 before.2 offset 0
    else pure this
  let before := monthBefore end_.fields.year end_.fields.month
  let begin_ ← datetime before.1 before.2 offset 0
  return (begin_, end_)

def yearPeriod (offset : Int) (rightnow : DateTime) : Except PyError (DateTime × DateTime) := do
  let offset := if offset = 0 then 1 else offset
  let this ← datetime rightnow.fields.year offset 1 0
  let future ← this.ge rightnow
  if future then
    let end_ ← datetime (rightnow.fields.year - 1) offset 1 0
    let begin_ ← datetime (rightnow.fields.year - 2) offset 1 0
    return (begin_, end_)
  else
    let begin_ ← datetime (rightnow.fields.year - 1) offset 1 0
    return (begin_, this)

/-- The days and the hours: the mark of now's own unit and the marks before it, each with
`t - timedelta(..)`. -/
def timedeltaPeriod (this : Except PyError DateTime) (minus : DateTime → Except PyError DateTime)
    (rightnow : DateTime) : Except PyError (DateTime × DateTime) := do
  let this ← this
  let future ← this.ge rightnow
  let end_ ← if future then minus this else pure this
  let begin_ ← minus end_
  return (begin_, end_)

def dayPeriod (offset : Int) (rightnow : DateTime) : Except PyError (DateTime × DateTime) :=
  timedeltaPeriod
    (datetime rightnow.fields.year rightnow.fields.month rightnow.fields.day offset)
    DateTime.minusDay rightnow

def hourPeriod (offset : Int) (rightnow : DateTime) : Except PyError (DateTime × DateTime) :=
  timedeltaPeriod (rightnow.replaceMinute offset) DateTime.minusHour rightnow

def lastCompletedAuditPeriod (conf : String) (utcnow : DateTime) (unit : Option String)
    (before : Option DateTime) : Except PyError (DateTime × DateTime) := do
  let (unit, offset) ← readUnit conf unit
  let rightnow := before.getD utcnow
  if unit ∉ ["month", "day", "year", "hour"] then
    .error (.of .valueError "Time period must be hour, day, month or year")
  else if unit = "month" then monthPeriod offset rightnow
  else if unit = "year" then yearPeriod offset rightnow
  else if unit = "day" then dayPeriod offset rightnow
  else hourPeriod offset rightnow

/-! ## The marks of a unit -/

inductive AuditUnit where
  | hour
  | day
  | month
  | year
  deriving DecidableEq, Repr

def AuditUnit.name : AuditUnit → String
  | .hour => "hour"
  | .day => "day"
  | .month => "month"
  | .year => "year"

/-- The offsets of a unit; the 1st of a month and January are also meant by 0, which
stands for no offset. -/
def AuditUnit.Accepts : AuditUnit → Int → Prop
  | .hour, offset => 0 ≤ offset ∧ offset ≤ 59
  | .day, offset => 0 ≤ offset ∧ offset ≤ 23
  | .month, offset => 0 ≤ offset ∧ offset ≤ 28
  | .year, offset => 0 ≤ offset ∧ offset ≤ 12

/-- Where in the unit the mark is. -/
def AuditUnit.place : AuditUnit → Int → Nat
  | .hour, offset => offset.toNat
  | .day, offset => offset.toNat
  | .month, offset => if offset = 0 then 1 else offset.toNat
  | .year, offset => if offset = 0 then 1 else offset.toNat

/-- The mark at a place of the unit that a time is in. -/
def AuditUnit.start (place : Nat) : AuditUnit → DateFields → DateFields
  | .hour, f => { f with minute := place, second := 0, microsecond := 0 }
  | .day, f => ⟨f.year, f.month, f.day, place, 0, 0, 0⟩
  | .month, f => ⟨f.year, f.month, place, 0, 0, 0, 0⟩
  | .year, f => ⟨f.year, place, 1, 0, 0, 0, 0⟩

/-- The same place in the unit before. -/
def AuditUnit.prev : AuditUnit → DateFields → DateFields
  | .hour, f => f.hourBefore
  | .day, f => f.dayBefore
  | .month, f =>
    if 1 < f.month then { f with month := f.month - 1 }
    else { f with year := f.year - 1, month := 12 }
  | .year, f => { f with year := f.year - 1 }

/-- The instant one unit later. -/
def AuditUnit.after : AuditUnit → DateFields → Nat
  | .hour, f => f.instant + hourLength
  | .day, f => f.instant + dayLength
  | .month, f =>
    if f.month < 12 then ({ f with month := f.month + 1 } : DateFields).instant
    else ({ f with year := f.year + 1, month := 1 } : DateFields).instant
  | .year, f => ({ f with year := f.year + 1 } : DateFields).instant

def AuditUnit.marks (unit : AuditUnit) (place : Nat) : Marks DateFields where
  instant := DateFields.instant
  start := unit.start place
  prev := unit.prev
  after := unit.after

/-- The places that every unit of the kind has. -/
def AuditUnit.Place : AuditUnit → Nat → Prop
  | .hour, place => place < 60
  | .day, place => place < 24
  | .month, place => 1 ≤ place ∧ place ≤ 28
  | .year, place => 1 ≤ place ∧ place ≤ 12

theorem AuditUnit.place_of_accepts {unit : AuditUnit} {offset : Int} (h : unit.Accepts offset) :
    unit.Place (unit.place offset) := by
  cases unit <;> simp only [AuditUnit.Accepts, AuditUnit.Place, AuditUnit.place] at h ⊢
  case hour => omega
  case day => omega
  case month => split <;> omega
  case year => split <;> omega

/-! ## The marks tile the time line -/

/-- What the marks of a unit do, as far as years allow. -/
structure AuditUnit.Regular (unit : AuditUnit) (place : Nat) : Prop where
  start_proper : ∀ f : DateFields, f.Proper → (unit.start place f).Proper
  prev_proper : ∀ f : DateFields, f.Proper → unit.start place f = f → (unit.prev f).Proper
  start_prev : ∀ f, unit.start place f = f → unit.start place (unit.prev f) = unit.prev f
  lt_after_start : ∀ f : DateFields, f.Proper → f.instant < unit.after (unit.start place f)
  prev_start_lt : ∀ f : DateFields, f.Proper → 1 ≤ f.year →
    (unit.prev (unit.start place f)).instant < f.instant
  after_prev : ∀ f : DateFields, f.Proper → 1 ≤ f.year → unit.after (unit.prev f) = f.instant

theorem instant_lt_of_month {f g : DateFields} (hf : f.Proper) (hg : g.Proper)
    (hyear : f.year = g.year) (h : f.month < g.month) : f.instant < g.instant :=
  instant_lt_of_ordinal hf (ordinal_lt_of_month hf hg hyear h)

theorem instant_lt_of_year {f g : DateFields} (hf : f.Proper) (hg : g.Proper)
    (h : f.year < g.year) : f.instant < g.instant :=
  instant_lt_of_ordinal hf (ordinal_lt_of_year hf hg h)

theorem proper_of_day {year month day hour : Nat} (hmonth : 1 ≤ month ∧ month ≤ 12)
    (hday : 1 ≤ day ∧ day ≤ daysInMonth year month) (hhour : hour < 24) :
    (DateFields.mk year month day hour 0 0 0).Proper :=
  ⟨hmonth, hday, hhour, (by decide : 0 < 60), (by decide : 0 < 60), (by decide : 0 < 1000000)⟩

/-- A day that every month has. -/
theorem proper_of_month {year month day : Nat} (hmonth : 1 ≤ month ∧ month ≤ 12)
    (hday : 1 ≤ day ∧ day ≤ 28) : (DateFields.mk year month day 0 0 0 0).Proper :=
  proper_of_day hmonth ⟨hday.1, Nat.le_trans hday.2 (le_daysInMonth year month)⟩ (by decide)

theorem first_of_month : 1 ≤ 1 ∧ 1 ≤ 28 := by decide

theorem hour_mark_iff {place : Nat} {f : DateFields} :
    AuditUnit.hour.start place f = f ↔ f.minute = place ∧ f.second = 0 ∧ f.microsecond = 0 := by
  cases f
  simp only [AuditUnit.start, DateFields.mk.injEq, true_and, eq_comm]

theorem day_mark_iff {place : Nat} {f : DateFields} :
    AuditUnit.day.start place f = f ↔
      f.hour = place ∧ f.minute = 0 ∧ f.second = 0 ∧ f.microsecond = 0 := by
  cases f
  simp only [AuditUnit.start, DateFields.mk.injEq, true_and, eq_comm]

theorem hour_regular {place : Nat} (h : AuditUnit.hour.Place place) :
    AuditUnit.hour.Regular place := by
  have hstart : ∀ f : DateFields, f.Proper → (AuditUnit.hour.start place f).Proper := by
    intro f hf
    exact ⟨hf.month, hf.day, hf.hour, h, (by decide : 0 < 60), (by decide : 0 < 1000000)⟩
  refine ⟨hstart, fun f hf _ => f.hourBefore_proper hf, ?_, ?_, ?_,
    fun f hf hyear => DateFields.hourBefore_instant hf hyear⟩
  · intro f hmark
    obtain ⟨hminute, hsecond, hmicrosecond⟩ := f.hourBefore_time
    rw [hour_mark_iff] at hmark
    show AuditUnit.hour.start place f.hourBefore = f.hourBefore
    rw [hour_mark_iff, hminute, hsecond, hmicrosecond]
    exact hmark
  · intro f hf
    obtain ⟨-, -, -, hminute, hsecond, hmicrosecond⟩ := hf
    simp only [AuditUnit.start, AuditUnit.after, DateFields.instant, DateFields.ordinal,
      DateFields.clock, hourLength]
    omega
  · intro f hf hyear
    have hbefore := DateFields.hourBefore_instant (hstart f hf) hyear
    have hplace : place < 60 := h
    show (AuditUnit.hour.start place f).hourBefore.instant < f.instant
    have hlt : (AuditUnit.hour.start place f).instant < f.instant + hourLength := by
      simp only [AuditUnit.start, DateFields.instant, DateFields.ordinal, DateFields.clock,
        hourLength]
      omega
    omega

theorem day_regular {place : Nat} (h : AuditUnit.day.Place place) :
    AuditUnit.day.Regular place := by
  have hstart : ∀ f : DateFields, f.Proper → (AuditUnit.day.start place f).Proper :=
    fun f hf => proper_of_day hf.month hf.day h
  have hinstant : ∀ f : DateFields, (AuditUnit.day.start place f).instant =
      f.ordinal * dayLength + (AuditUnit.day.start place f).clock := fun f => rfl
  refine ⟨hstart, fun f hf _ => f.dayBefore_proper hf, ?_, ?_, ?_,
    fun f hf hyear => DateFields.dayBefore_instant hf hyear⟩
  · intro f hmark
    obtain ⟨hhour, hminute, hsecond, hmicrosecond⟩ := f.dayBefore_time
    rw [day_mark_iff] at hmark
    show AuditUnit.day.start place f.dayBefore = f.dayBefore
    rw [day_mark_iff, hhour, hminute, hsecond, hmicrosecond]
    exact hmark
  · intro f hf
    have hclock := hf.clock_lt
    show f.instant < (AuditUnit.day.start place f).instant + dayLength
    rw [hinstant, DateFields.instant]
    omega
  · intro f hf hyear
    have hbefore := DateFields.dayBefore_instant (hstart f hf) hyear
    have hclock := (hstart f hf).clock_lt
    show (AuditUnit.day.start place f).dayBefore.instant < f.instant
    rw [hinstant] at hbefore
    rw [DateFields.instant.eq_1 f]
    omega

theorem month_regular {place : Nat} (h : AuditUnit.month.Place place) :
    AuditUnit.month.Regular place := by
  have hprev : ∀ f : DateFields, f.Proper →
      (AuditUnit.month.prev (AuditUnit.month.start place f)).Proper := by
    intro f hf
    have hmonth := hf.month
    show (if 1 < f.month then _ else _ : DateFields).Proper
    split
    · next hlt =>
      have hback : 1 ≤ f.month - 1 ∧ f.month - 1 ≤ 12 := by omega
      exact proper_of_month hback h
    · exact proper_of_month ⟨by decide, by decide⟩ h
  refine ⟨fun f hf => proper_of_month hf.month h, ?_, ?_, ?_, ?_, ?_⟩
  · intro f hf hmark
    rw [← hmark]
    exact hprev f hf
  · intro f hmark
    rw [← hmark]
    show AuditUnit.month.start place (if 1 < f.month then _ else _) = if 1 < f.month then _ else _
    split <;> rfl
  · intro f hf
    have hmonth := hf.month
    show f.instant < if f.month < 12 then _ else _
    split
    · next hlt =>
      exact instant_lt_of_month hf (proper_of_month ⟨by omega, hlt⟩ h) rfl (Nat.lt_succ_self _)
    · exact instant_lt_of_year hf (proper_of_month ⟨by decide, by decide⟩ h) (Nat.lt_succ_self _)
  · intro f hf hyear
    have hmonth := hf.month
    have hproper := hprev f hf
    revert hproper
    show (if 1 < f.month then _ else _ : DateFields).Proper →
      DateFields.instant (if 1 < f.month then _ else _) < f.instant
    split
    · exact fun hproper => instant_lt_of_month hproper hf rfl (Nat.sub_lt hmonth.1 Nat.one_pos)
    · exact fun hproper => instant_lt_of_year hproper hf (Nat.sub_lt hyear Nat.one_pos)
  · intro f hf hyear
    have hmonth := hf.month
    by_cases hlt : 1 < f.month
    · have hback : f.month - 1 < 12 := by omega
      simp only [AuditUnit.prev, if_pos hlt, AuditUnit.after, if_pos hback,
        Nat.sub_add_cancel hmonth.1]
    · have hjanuary : ({ f with month := 1 } : DateFields) = f := by
        rw [← (by omega : f.month = 1)]
      have hdecember : ¬ 12 < 12 := Nat.lt_irrefl 12
      simp only [AuditUnit.prev, if_neg hlt, AuditUnit.after, if_neg hdecember,
        Nat.sub_add_cancel hyear, hjanuary]

theorem year_regular {place : Nat} (h : AuditUnit.year.Place place) :
    AuditUnit.year.Regular place where
  start_proper f _ := proper_of_month h first_of_month
  prev_proper f _ hmark := by
    rw [← hmark]
    exact proper_of_month h first_of_month
  start_prev f hmark := by
    rw [← hmark]
    rfl
  lt_after_start f hf := instant_lt_of_year hf (proper_of_month h first_of_month)
    (Nat.lt_succ_self _)
  prev_start_lt f hf hyear := instant_lt_of_year (proper_of_month h first_of_month) hf
    (Nat.sub_lt hyear Nat.one_pos)
  after_prev f hf hyear := by
    show DateFields.instant { f with year := f.year - 1 + 1 } = f.instant
    rw [Nat.sub_add_cancel hyear]

theorem AuditUnit.regular {unit : AuditUnit} {place : Nat} (h : unit.Place place) :
    unit.Regular place := by
  cases unit with
  | hour => exact hour_regular h
  | day => exact day_regular h
  | month => exact month_regular h
  | year => exact year_regular h

theorem AuditUnit.start_year (unit : AuditUnit) (place : Nat) (f : DateFields) :
    (unit.start place f).year = f.year := by
  cases unit <;> rfl

theorem AuditUnit.start_start (unit : AuditUnit) (place : Nat) (f : DateFields) :
    unit.start place (unit.start place f) = unit.start place f := by
  cases unit <;> rfl

theorem AuditUnit.prev_year (unit : AuditUnit) (f : DateFields) :
    f.year - 1 ≤ (unit.prev f).year ∧ (unit.prev f).year ≤ f.year := by
  cases unit with
  | hour => exact f.hourBefore_year
  | day => exact f.dayBefore_year
  | month =>
    show f.year - 1 ≤ DateFields.year (if 1 < f.month then _ else _) ∧ _
    simp only [AuditUnit.prev]
    split <;> simp only <;> omega
  | year => exact ⟨Nat.le_refl _, Nat.sub_le _ _⟩

/-- A mark with a mark before it. -/
def AuditUnit.IsMark (unit : AuditUnit) (place : Nat) (f : DateFields) : Prop :=
  f.Proper ∧ 1 ≤ f.year ∧ unit.start place f = f

/-- A time with two marks before it. -/
def HasRoom (f : DateFields) : Prop := f.Proper ∧ 2 ≤ f.year

theorem AuditUnit.lawful {unit : AuditUnit} {place : Nat} (h : unit.Place place) :
    (unit.marks place).Lawful (unit.IsMark place) HasRoom := by
  have hregular := AuditUnit.regular h
  have hstart : ∀ f, HasRoom f → unit.IsMark place (unit.start place f) := by
    intro f ⟨hf, hyear⟩
    refine ⟨hregular.start_proper f hf, ?_, unit.start_start place f⟩
    rw [unit.start_year]
    omega
  refine ⟨hstart, ?_, fun f hf => hf.2.2, fun f hf => hregular.lt_after_start f hf.1, ?_, ?_, ?_⟩
  · intro f hf
    obtain ⟨hproper, -, hmark⟩ := hstart f hf
    refine ⟨hregular.prev_proper _ hproper hmark, ?_, hregular.start_prev _ hmark⟩
    have hyear := (unit.prev_year (unit.start place f)).1
    have hroom := hf.2
    rw [unit.start_year] at hyear
    show 1 ≤ (unit.prev (unit.start place f)).year
    omega
  · intro f ⟨hf, hyear⟩
    exact hregular.prev_start_lt f hf (by omega)
  · intro f ⟨hf, hyear, hmark⟩
    have hlt := hregular.prev_start_lt f hf hyear
    rw [hmark] at hlt
    exact hlt
  · intro f ⟨hf, hyear, _⟩
    exact hregular.after_prev f hf hyear

/-! ## The code returns the last period -/

/-- The code returns two naive times. -/
def Returns (r : Except PyError (DateTime × DateTime)) (period : DateFields × DateFields) : Prop :=
  ∃ begin_ end_, r = .ok (begin_, end_) ∧ (begin_.fields = period.1 ∧ begin_.tzinfo = none) ∧
    end_.fields = period.2 ∧ end_.tzinfo = none

theorem DateTime.eq_of_fields {t u : DateTime} (h : t.fields = u.fields)
    (hzone : t.tzinfo = u.tzinfo) : t = u := by
  cases t
  cases u
  cases h
  cases hzone
  rfl

theorem lastPeriod_end_year (unit : AuditUnit) (place : Nat) (t : DateFields) :
    t.year - 1 ≤ ((unit.marks place).lastPeriod t).2.year ∧
      ((unit.marks place).lastPeriod t).2.year ≤ t.year := by
  have hsame := unit.start_year place t
  have hback := unit.prev_year (unit.start place t)
  rw [hsame] at hback
  unfold Marks.lastPeriod
  split
  · exact hback
  · exact ⟨Nat.le_trans (Nat.sub_le _ _) (Nat.le_of_eq hsame.symm), Nat.le_of_eq hsame⟩

/-- The times that the code passes through are ones it can build. -/
theorem lastPeriod_valid {unit : AuditUnit} {place : Nat} (h : unit.Place place) {t : DateFields}
    (ht : t.Valid) (hyear : 1 ≤ ((unit.marks place).lastPeriod t).1.year) :
    ((unit.marks place).lastPeriod t).1.Valid ∧ ((unit.marks place).lastPeriod t).2.Valid ∧
      unit.start place ((unit.marks place).lastPeriod t).2 =
        ((unit.marks place).lastPeriod t).2 := by
  have hregular := AuditUnit.regular h
  have hend : ((unit.marks place).lastPeriod t).2.Proper ∧
      unit.start place ((unit.marks place).lastPeriod t).2 =
        ((unit.marks place).lastPeriod t).2 := by
    have hstart := hregular.start_proper t ht.proper
    have hmark := unit.start_start place t
    unfold Marks.lastPeriod
    split
    · exact ⟨hregular.prev_proper _ hstart hmark, hregular.start_prev _ hmark⟩
    · exact ⟨hstart, hmark⟩
  obtain ⟨hproper, hmark⟩ := hend
  have hle := (lastPeriod_end_year unit place t).2
  have hbegin : (unit.prev ((unit.marks place).lastPeriod t).2).Proper :=
    hregular.prev_proper _ hproper hmark
  have hback := (unit.prev_year ((unit.marks place).lastPeriod t).2).2
  have hmax := ht.year.2
  rw [Marks.lastPeriod_begin] at hyear ⊢
  change 1 ≤ (unit.prev ((unit.marks place).lastPeriod t).2).year at hyear
  exact ⟨hbegin.valid ⟨hyear, by omega⟩, hproper.valid ⟨by omega, by omega⟩, hmark⟩

theorem datetime_ok {f : DateFields} (h : f.Valid)
    (htime : f.minute = 0 ∧ f.second = 0 ∧ f.microsecond = 0) :
    datetime f.year f.month f.day f.hour = .ok ⟨f, none, h⟩ := by
  have hyear := h.year
  have hmonth := h.month
  have hday := Nat.le_trans h.day.2 (daysInMonth_le f.year f.month)
  have hhour := h.hour
  have hargs := DateTime.ofArgs_valid h none
  rw [htime.1, htime.2.1, htime.2.2] at hargs
  unfold datetime
  rw [cInt_ok (by omega) (by omega), cInt_ok (by omega) (by omega), cInt_ok (by omega) (by omega),
    cInt_ok (by omega) (by omega)]
  exact hargs

/-! ### Months -/

theorem month_mark_iff {place : Nat} {f : DateFields} :
    AuditUnit.month.start place f = f ↔
      f.day = place ∧ f.hour = 0 ∧ f.minute = 0 ∧ f.second = 0 ∧ f.microsecond = 0 := by
  cases f
  simp only [AuditUnit.start, DateFields.mk.injEq, true_and, eq_comm]

theorem datetime_month {place : Nat} {f : DateFields} (h : f.Valid)
    (hmark : AuditUnit.month.start place f = f) :
    datetime f.year f.month place 0 = .ok ⟨f, none, h⟩ := by
  obtain ⟨hday, hhour, htime⟩ := month_mark_iff.mp hmark
  have hdatetime := datetime_ok h htime
  rw [hday, hhour] at hdatetime
  exact hdatetime

theorem monthBefore_prev {f : DateFields} (hmonth : 1 ≤ f.month)
    (hyear : 1 ≤ (AuditUnit.month.prev f).year) :
    monthBefore f.year f.month =
      (((AuditUnit.month.prev f).year : Int), ((AuditUnit.month.prev f).month : Int)) := by
  unfold monthBefore
  simp only [AuditUnit.prev] at hyear ⊢
  by_cases hlt : 1 < f.month
  · rw [if_neg (by omega), if_pos hlt]
    simp only [Prod.mk.injEq, true_and]
    omega
  · rw [if_neg hlt] at hyear ⊢
    rw [if_pos (by omega)]
    simp only [Prod.mk.injEq] at hyear ⊢
    omega

theorem datetime_monthBefore {place : Nat} (h : AuditUnit.month.Place place) {f : DateFields}
    (hf : f.Proper) (hmark : AuditUnit.month.start place f = f)
    (hprev : (AuditUnit.month.prev f).Valid) :
    datetime (monthBefore f.year f.month).1 (monthBefore f.year f.month).2 place 0 =
      .ok ⟨AuditUnit.month.prev f, none, hprev⟩ := by
  rw [monthBefore_prev hf.month.1 hprev.year.1]
  exact datetime_month hprev ((month_regular h).start_prev f hmark)

/-- The two cases of the last period, in the words of the code. -/
theorem lastPeriod_eq (unit : AuditUnit) (place : Nat) (t : DateFields) :
    (unit.marks place).lastPeriod t =
      if t.instant ≤ (unit.start place t).instant then
        (unit.prev (unit.prev (unit.start place t)), unit.prev (unit.start place t))
      else (unit.prev (unit.start place t), unit.start place t) :=
  rfl

theorem monthPeriod_returns {place : Nat} (h : AuditUnit.month.Place place) {offset : Int}
    (hoffset : (if offset = 0 then 1 else offset) = (place : Int)) {t : DateTime}
    (hnaive : t.tzinfo = none)
    (hyear : 1 ≤ ((AuditUnit.month.marks place).lastPeriod t.fields).1.year) :
    Returns (monthPeriod offset t) ((AuditUnit.month.marks place).lastPeriod t.fields) := by
  obtain ⟨hbegin, hend, hmark⟩ := lastPeriod_valid h t.valid hyear
  have hproper := (month_regular h).start_proper _ t.valid.proper
  have hstart := hproper.valid t.valid.year
  have hthis : datetime t.fields.year t.fields.month place 0 = .ok ⟨_, none, hstart⟩ :=
    datetime_month hstart rfl
  have hge := DateTime.ge_of_same_zone (t := ⟨_, none, hstart⟩) hnaive.symm
  simp only [monthPeriod, hoffset, hthis, hge, bind, Except.bind, pure, Except.pure,
    decide_eq_true_eq]
  rw [lastPeriod_eq] at hbegin hend hmark ⊢
  by_cases hle : t.fields.instant ≤ (AuditUnit.month.start place t.fields).instant
  · simp only [if_pos hle] at hbegin hend hmark ⊢
    have hback : datetime (monthBefore t.fields.year t.fields.month).1
        (monthBefore t.fields.year t.fields.month).2 place 0 = .ok ⟨_, none, hend⟩ :=
      datetime_monthBefore h hproper rfl hend
    simp only [hback, datetime_monthBefore h hend.proper hmark hbegin]
    exact ⟨_, _, rfl, ⟨rfl, rfl⟩, rfl, rfl⟩
  · simp only [if_neg hle] at hbegin hend hmark ⊢
    have hback := datetime_monthBefore h hproper rfl hbegin
    simp only [hback]
    exact ⟨_, _, rfl, ⟨rfl, rfl⟩, rfl, rfl⟩

/-! ### Years -/

theorem year_mark_iff {place : Nat} {f : DateFields} :
    AuditUnit.year.start place f = f ↔ f.month = place ∧ f.day = 1 ∧ f.hour = 0 ∧ f.minute = 0 ∧
      f.second = 0 ∧ f.microsecond = 0 := by
  cases f
  simp only [AuditUnit.start, DateFields.mk.injEq, true_and, eq_comm]

theorem datetime_year {place : Nat} {f : DateFields} (h : f.Valid)
    (hmark : AuditUnit.year.start place f = f) :
    datetime f.year place 1 0 = .ok ⟨f, none, h⟩ := by
  obtain ⟨hmonth, hday, hhour, htime⟩ := year_mark_iff.mp hmark
  have hdatetime := datetime_ok h htime
  rw [hmonth, hday, hhour] at hdatetime
  exact hdatetime

theorem yearPeriod_returns {place : Nat} (h : AuditUnit.year.Place place) {offset : Int}
    (hoffset : (if offset = 0 then 1 else offset) = (place : Int)) {t : DateTime}
    (hnaive : t.tzinfo = none)
    (hyear : 1 ≤ ((AuditUnit.year.marks place).lastPeriod t.fields).1.year) :
    Returns (yearPeriod offset t) ((AuditUnit.year.marks place).lastPeriod t.fields) := by
  obtain ⟨hbegin, hend, -⟩ := lastPeriod_valid h t.valid hyear
  have hproper := (year_regular h).start_proper _ t.valid.proper
  have hstart := hproper.valid t.valid.year
  have hthis : datetime t.fields.year place 1 0 = .ok ⟨_, none, hstart⟩ := datetime_year hstart rfl
  have hge := DateTime.ge_of_same_zone (t := ⟨_, none, hstart⟩) hnaive.symm
  simp only [yearPeriod, hoffset, hthis, hge, bind, Except.bind, pure, Except.pure,
    decide_eq_true_eq]
  rw [lastPeriod_eq] at hbegin hend ⊢
  by_cases hle : t.fields.instant ≤ (AuditUnit.year.start place t.fields).instant
  · simp only [if_pos hle] at hbegin hend ⊢
    have hback : datetime ((t.fields.year - 1 : Nat) : Int) place 1 0 = .ok ⟨_, none, hend⟩ :=
      datetime_year hend rfl
    have hback₂ : datetime ((t.fields.year - 1 - 1 : Nat) : Int) place 1 0 =
        .ok ⟨_, none, hbegin⟩ := datetime_year hbegin rfl
    have hone := hbegin.year.1
    change 1 ≤ t.fields.year - 1 - 1 at hone
    rw [(by omega : ((t.fields.year - 1 : Nat) : Int) = t.fields.year - 1)] at hback
    rw [(by omega : ((t.fields.year - 1 - 1 : Nat) : Int) = t.fields.year - 2)] at hback₂
    simp only [hback, hback₂]
    exact ⟨_, _, rfl, ⟨rfl, rfl⟩, rfl, rfl⟩
  · simp only [if_neg hle] at hbegin hend ⊢
    have hback : datetime ((t.fields.year - 1 : Nat) : Int) place 1 0 = .ok ⟨_, none, hbegin⟩ :=
      datetime_year hbegin rfl
    have hone := t.valid.year.1
    rw [(by omega : ((t.fields.year - 1 : Nat) : Int) = t.fields.year - 1)] at hback
    simp only [hback]
    exact ⟨_, _, rfl, ⟨rfl, rfl⟩, rfl, rfl⟩

/-! ### Days and hours -/

theorem timedeltaPeriod_returns {unit : AuditUnit} {place : Nat} (h : unit.Place place)
    {minus : DateTime → Except PyError DateTime}
    (hminus : ∀ (f : DateFields) (hf : f.Valid) (hprev : (unit.prev f).Valid),
      minus ⟨f, none, hf⟩ = .ok ⟨unit.prev f, none, hprev⟩)
    {t : DateTime} (hnaive : t.tzinfo = none) {this : Except PyError DateTime}
    (hthis : ∀ hstart : (unit.start place t.fields).Valid, this = .ok ⟨_, none, hstart⟩)
    (hyear : 1 ≤ ((unit.marks place).lastPeriod t.fields).1.year) :
    Returns (timedeltaPeriod this minus t) ((unit.marks place).lastPeriod t.fields) := by
  obtain ⟨hbegin, hend, -⟩ := lastPeriod_valid h t.valid hyear
  have hstart : (unit.start place t.fields).Valid := by
    refine ((AuditUnit.regular h).start_proper _ t.valid.proper).valid ?_
    rw [unit.start_year]
    exact t.valid.year
  have hge := DateTime.ge_of_same_zone (t := ⟨_, none, hstart⟩) hnaive.symm
  simp only [timedeltaPeriod, hthis hstart, hge, bind, Except.bind, pure, Except.pure,
    decide_eq_true_eq]
  rw [lastPeriod_eq] at hbegin hend ⊢
  by_cases hle : t.fields.instant ≤ (unit.start place t.fields).instant
  · simp only [if_pos hle] at hbegin hend ⊢
    simp only [hminus _ hstart hend, hminus _ hend hbegin]
    exact ⟨_, _, rfl, ⟨rfl, rfl⟩, rfl, rfl⟩
  · simp only [if_neg hle] at hbegin hend ⊢
    simp only [hminus _ hstart hbegin]
    exact ⟨_, _, rfl, ⟨rfl, rfl⟩, rfl, rfl⟩

theorem dayPeriod_returns {place : Nat} (h : AuditUnit.day.Place place) {t : DateTime}
    (hnaive : t.tzinfo = none)
    (hyear : 1 ≤ ((AuditUnit.day.marks place).lastPeriod t.fields).1.year) :
    Returns (dayPeriod place t) ((AuditUnit.day.marks place).lastPeriod t.fields) := by
  refine timedeltaPeriod_returns h (fun _ _ hprev => dif_pos hprev) hnaive ?_ hyear
  exact fun hstart => datetime_ok hstart ⟨rfl, rfl, rfl⟩

theorem hourPeriod_returns {place : Nat} (h : AuditUnit.hour.Place place) {t : DateTime}
    (hnaive : t.tzinfo = none)
    (hyear : 1 ≤ ((AuditUnit.hour.marks place).lastPeriod t.fields).1.year) :
    Returns (hourPeriod place t) ((AuditUnit.hour.marks place).lastPeriod t.fields) := by
  refine timedeltaPeriod_returns h (fun _ _ hprev => dif_pos hprev) hnaive ?_ hyear
  intro hstart
  have hplace : place < 60 := h
  have hargs := DateTime.ofArgs_valid hstart t.tzinfo
  unfold DateTime.replaceMinute
  rw [cInt_ok (by omega) (by omega), ← hnaive]
  exact hargs

/-! ## Audit periods tile the time line -/

theorem place_of_default {offset : Int} (h : 0 ≤ offset) :
    (if offset = 0 then 1 else offset) =
      ((if offset = 0 then 1 else offset.toNat : Nat) : Int) := by
  split
  · rfl
  · exact (Int.toNat_of_nonneg h).symm

def AuditUnit.period : AuditUnit → Int → DateTime → Except PyError (DateTime × DateTime)
  | .hour => hourPeriod
  | .day => dayPeriod
  | .month => monthPeriod
  | .year => yearPeriod

theorem auditPeriod_eq {unit : AuditUnit} {offset : Int} {conf : String} {text : Option String}
    (hread : readUnit conf text = .ok (unit.name, offset)) (utcnow t : DateTime) :
    lastCompletedAuditPeriod conf utcnow text (some t) = unit.period offset t := by
  unfold lastCompletedAuditPeriod
  rw [hread]
  cases unit <;> rfl

theorem AuditUnit.period_returns {unit : AuditUnit} {offset : Int} (h : unit.Accepts offset)
    {t : DateTime} (hnaive : t.tzinfo = none)
    (hyear : 1 ≤ ((unit.marks (unit.place offset)).lastPeriod t.fields).1.year) :
    Returns (unit.period offset t) ((unit.marks (unit.place offset)).lastPeriod t.fields) := by
  have hplace := AuditUnit.place_of_accepts h
  cases unit with
  | hour =>
    have hoffset : ((AuditUnit.hour.place offset : Nat) : Int) = offset := Int.toNat_of_nonneg h.1
    have hreturns := hourPeriod_returns hplace hnaive hyear
    rw [hoffset] at hreturns
    exact hreturns
  | day =>
    have hoffset : ((AuditUnit.day.place offset : Nat) : Int) = offset := Int.toNat_of_nonneg h.1
    have hreturns := dayPeriod_returns hplace hnaive hyear
    rw [hoffset] at hreturns
    exact hreturns
  | month => exact monthPeriod_returns hplace (place_of_default h.1) hnaive hyear
  | year => exact yearPeriod_returns hplace (place_of_default h.1) hnaive hyear

/-- Of two steps back, at most one leaves the year. -/
theorem AuditUnit.prev_same_year {unit : AuditUnit} (h : unit ≠ .year) (f : DateFields) :
    (unit.prev f).year = f.year ∨ (unit.prev (unit.prev f)).year = (unit.prev f).year := by
  cases unit with
  | hour =>
    by_cases hhour : 1 ≤ f.hour
    · left
      simp only [AuditUnit.prev, DateFields.hourBefore, if_pos hhour]
    · right
      simp only [AuditUnit.prev, DateFields.hourBefore.eq_1 f, if_neg hhour]
      rfl
  | day =>
    by_cases hday : 1 < f.day
    · left
      simp only [AuditUnit.prev, DateFields.dayBefore, if_pos hday]
    · by_cases hmonth : 1 < f.month
      · left
        simp only [AuditUnit.prev, DateFields.dayBefore, if_neg hday, if_pos hmonth]
      · right
        simp only [AuditUnit.prev, DateFields.dayBefore.eq_1 f, if_neg hday, if_neg hmonth]
        rfl
  | month =>
    by_cases hmonth : 1 < f.month
    · left
      simp only [AuditUnit.prev, if_pos hmonth]
    · right
      simp only [AuditUnit.prev, if_neg hmonth]
      rfl
  | year => exact absurd rfl h

/-- From year 3 on the last period begins after year 0. -/
theorem lastPeriod_room (unit : AuditUnit) (place : Nat) {t : DateFields} (h : 3 ≤ t.year) :
    1 ≤ ((unit.marks place).lastPeriod t).1.year := by
  have hend := (lastPeriod_end_year unit place t).1
  have hbegin := (unit.prev_year ((unit.marks place).lastPeriod t).2).1
  rw [Marks.lastPeriod_begin]
  show 1 ≤ (unit.prev ((unit.marks place).lastPeriod t).2).year
  omega

/-- And so does the one before it, but for a yearly one that ends in year 1. -/
theorem lastPeriod_room_again {unit : AuditUnit} {place : Nat} (hplace : unit.Place place)
    {t : DateFields} (hroom : HasRoom t) (h : 3 ≤ t.year)
    (hnot : ¬ (unit = .year ∧ ((unit.marks place).lastPeriod t).2.year = 2)) :
    1 ≤ ((unit.marks place).lastPeriod ((unit.marks place).lastPeriod t).2).1.year := by
  have hlawful := AuditUnit.lawful hplace
  rw [Marks.lastPeriod_mark hlawful (Marks.lastPeriod_end_mark hlawful hroom)]
  show 1 ≤ (unit.prev (unit.prev ((unit.marks place).lastPeriod t).2)).year
  have hend := (lastPeriod_end_year unit place t).1
  have hback := (unit.prev_year ((unit.marks place).lastPeriod t).2).1
  have hback₂ := (unit.prev_year (unit.prev ((unit.marks place).lastPeriod t).2)).1
  by_cases hunit : unit = .year
  · have htwo : ((unit.marks place).lastPeriod t).2.year ≠ 2 := fun htwo => hnot ⟨hunit, htwo⟩
    omega
  · have hsame := AuditUnit.prev_same_year hunit ((unit.marks place).lastPeriod t).2
    omega

/-- Back from the first place of year 2, the period before begins in year 0. -/
theorem yearPeriod_year_zero {place : Nat} (h : AuditUnit.year.Place place) {offset : Int}
    (hoffset : (if offset = 0 then 1 else offset) = (place : Int)) {t : DateTime}
    (hnaive : t.tzinfo = none) (hmark : AuditUnit.year.start place t.fields = t.fields)
    (htwo : t.fields.year = 2) :
    yearPeriod offset t = .error (.of .valueError "year is out of range") := by
  have hthis := datetime_year t.valid hmark
  have hge := DateTime.ge_of_same_zone (t := ⟨t.fields, none, t.valid⟩) hnaive.symm
  have hend : (AuditUnit.year.prev t.fields).Valid := by
    have hproper := (year_regular h).prev_proper _ t.valid.proper hmark
    refine hproper.valid ?_
    simp only [AuditUnit.prev, htwo]
    decide
  have hback := datetime_year hend ((year_regular h).start_prev _ hmark)
  have hzero : datetime 0 place 1 0 = .error (.of .valueError "year is out of range") := by
    have hle := h.2
    unfold datetime
    rw [cInt_ok (by decide) (by decide), cInt_ok (by omega) (by omega),
      cInt_ok (by decide) (by decide)]
    rfl
  simp only [AuditUnit.prev, htwo] at hthis hback
  simp only [yearPeriod, hoffset, htwo, hthis, hge, bind, Except.bind, Nat.le_refl, decide_true,
    if_true]
  have hone : ((2 : Nat) : Int) - 1 = ((2 - 1 : Nat) : Int) := rfl
  have hnone : ((2 : Nat) : Int) - 2 = 0 := rfl
  rw [hone, hback]
  simp only [hnone, hzero]

/-- The period over at `before` is a tile of the time line, and the one over at its end
ends where it begins. -/
def Chained (period : DateTime → Except PyError (DateTime × DateTime)) (marks : Marks DateFields)
    (before : DateTime) : Prop :=
  ∃ begin_ end_, period before = .ok (begin_, end_) ∧
    marks.Tile before.fields begin_.fields end_.fields ∧
      ∃ earlier, period end_ = .ok (earlier, begin_)

/-- **Audit periods tile the time line.** From year 3 on the period over at a time is one
unit long and over for less than a unit, and the period over at its end ends where it
begins; only where a yearly period ends in year 2 is there no year for the one before. -/
theorem audit_periods_tile {unit : AuditUnit} {offset : Int} (h : unit.Accepts offset)
    {conf : String} {text : Option String} (hread : readUnit conf text = .ok (unit.name, offset))
    (utcnow : DateTime) {before : DateTime} (hnaive : before.tzinfo = none)
    (hyear : 3 ≤ before.fields.year) :
    ∃ begin_ end_, lastCompletedAuditPeriod conf utcnow text (some before) = .ok (begin_, end_) ∧
      (unit.marks (unit.place offset)).Tile before.fields begin_.fields end_.fields ∧
      (¬ (unit = .year ∧ end_.fields.year = 2) →
        ∃ earlier, lastCompletedAuditPeriod conf utcnow text (some end_) =
          .ok (earlier, begin_)) ∧
      (unit = .year ∧ end_.fields.year = 2 →
        lastCompletedAuditPeriod conf utcnow text (some end_) =
          .error (.of .valueError "year is out of range")) := by
  have hplace := AuditUnit.place_of_accepts h
  have hlawful := AuditUnit.lawful hplace
  have hroom : HasRoom before.fields := ⟨before.valid.proper, by omega⟩
  have hmark := Marks.lastPeriod_end_mark hlawful hroom
  obtain ⟨begin_, end_, hperiod, ⟨hbegin, hbeginZone⟩, hend, hendZone⟩ :=
    AuditUnit.period_returns h hnaive (lastPeriod_room unit (unit.place offset) hyear)
  have hagain := lastPeriod_room_again hplace hroom hyear
  have htile := Marks.lastPeriod_tile hlawful hroom
  rw [← hend] at hagain hmark
  rw [← hbegin, ← hend] at htile
  simp only [auditPeriod_eq hread]
  refine ⟨begin_, end_, hperiod, htile, ?_, ?_⟩
  · intro hnot
    obtain ⟨earlier, begin₂, hperiod₂, -, hbegin₂, hzone₂⟩ :=
      AuditUnit.period_returns h hendZone (hagain hnot)
    have hsame : begin₂ = begin_ := by
      apply DateTime.eq_of_fields
      · rw [hbegin₂, hbegin, hend, Marks.lastPeriod_lastPeriod hlawful hroom]
      · rw [hzone₂, hbeginZone]
    rw [hsame] at hperiod₂
    exact ⟨earlier, hperiod₂⟩
  · intro ⟨hunit, htwo⟩
    subst hunit
    exact yearPeriod_year_zero hplace (place_of_default h.1) hendZone hmark.2.2 htwo

def leapDay : DateTime := ⟨⟨2016, 3, 1, 5, 0, 0, 0⟩, none, by decide⟩

/-- The day from 18:00 on the 28th of February, on the morning of the 1st of March. -/
theorem audit_periods_tile_leap_day :
    Chained (fun t => lastCompletedAuditPeriod "month" leapDay (some "day@18") (some t))
      (AuditUnit.day.marks 18) leapDay := by
  have haccepts : AuditUnit.day.Accepts 18 := ⟨by decide, by decide⟩
  obtain ⟨begin_, end_, hperiod, htile, hchain, -⟩ :=
    audit_periods_tile haccepts (rfl : readUnit "month" (some "day@18") = .ok ("day", 18)) leapDay
      (rfl : leapDay.tzinfo = none) (by decide)
  exact ⟨begin_, end_, hperiod, htile, hchain (fun hyear => AuditUnit.noConfusion hyear.1)⟩

/-! ### At the beginning of time -/

def newYear3 : DateTime := ⟨⟨3, 1, 1, 0, 0, 0, 0⟩, none, by decide⟩
def newYear2 : DateTime := ⟨⟨2, 1, 1, 0, 0, 0, 0⟩, none, by decide⟩
def newYear1 : DateTime := ⟨⟨1, 1, 1, 0, 0, 0, 0⟩, none, by decide⟩

/-- The year 2 is over, but the year 1 is not found from its end. -/
theorem audit_period_year_zero :
    ¬ Chained (fun t => lastCompletedAuditPeriod "month" newYear3 (some "year") (some t))
      (AuditUnit.year.marks 1) newYear3 := by
  intro ⟨begin_, end_, hperiod, _, earlier, hagain⟩
  have hfirst : lastCompletedAuditPeriod "month" newYear3 (some "year") (some newYear3) =
      .ok (newYear1, newYear2) := rfl
  have hsecond : lastCompletedAuditPeriod "month" newYear3 (some "year") (some newYear2) =
      .error (.of .valueError "year is out of range") := rfl
  have hend : end_ = newYear2 := (Prod.mk.inj (Except.ok.inj (hperiod.symm.trans hfirst))).2
  rw [hend] at hagain
  cases hagain.symm.trans hsecond

end PolarBear.Utils
