import Mathlib.Tactic.IntervalCases
import PolarBear.Py.Value

/-!
# `datetime` and its text

`strftime` and `strptime` for the format `%Y-%m-%dT%H:%M:%S.%f`, in which times
are sent. Formatting drops a time zone and needs a year from 1900 on; reading
accepts fewer digits than formatting writes. What is written is read back:
`strptime_isoText`.
-/

namespace PolarBear.Py

/-! ## Dates -/

def isLeapYear (year : Nat) : Bool :=
  year % 4 == 0 && (year % 100 != 0 || year % 400 == 0)

def daysInMonth (year month : Nat) : Nat :=
  if month = 2 then (if isLeapYear year then 29 else 28)
  else if month = 4 ∨ month = 6 ∨ month = 9 ∨ month = 11 then 30
  else 31

/-- The numbers of a date and a time of day. -/
structure DateFields where
  year : Nat
  month : Nat
  day : Nat
  hour : Nat
  minute : Nat
  second : Nat
  microsecond : Nat
  deriving DecidableEq, Repr

/-- What the `datetime` constructor accepts. -/
structure DateFields.Valid (f : DateFields) : Prop where
  year : 1 ≤ f.year ∧ f.year ≤ 9999
  month : 1 ≤ f.month ∧ f.month ≤ 12
  day : 1 ≤ f.day ∧ f.day ≤ daysInMonth f.year f.month
  hour : f.hour < 24
  minute : f.minute < 60
  second : f.second < 60
  microsecond : f.microsecond < 1000000

instance (f : DateFields) : Decidable f.Valid :=
  decidable_of_iff
    ((1 ≤ f.year ∧ f.year ≤ 9999) ∧ (1 ≤ f.month ∧ f.month ≤ 12) ∧
      (1 ≤ f.day ∧ f.day ≤ daysInMonth f.year f.month) ∧ f.hour < 24 ∧ f.minute < 60 ∧
      f.second < 60 ∧ f.microsecond < 1000000)
    ⟨fun ⟨h₁, h₂, h₃, h₄, h₅, h₆, h₇⟩ => ⟨h₁, h₂, h₃, h₄, h₅, h₆, h₇⟩,
      fun ⟨h₁, h₂, h₃, h₄, h₅, h₆, h₇⟩ => ⟨h₁, h₂, h₃, h₄, h₅, h₆, h₇⟩⟩

theorem daysInMonth_le (year month : Nat) : daysInMonth year month ≤ 31 := by
  unfold daysInMonth
  split
  · split <;> omega
  · split <;> omega

/-- A `datetime`; the zone is an offset in minutes. -/
structure DateTime where
  fields : DateFields
  tzinfo : Option Int
  valid : fields.Valid

/-! ## Formatting -/

/-- The last `width` decimal digits. -/
def padded : (width : Nat) → Nat → List Char
  | 0, _ => []
  | width + 1, n => padded width (n / 10) ++ [Nat.digitChar (n % 10)]

/-- `%Y-%m-%dT%H:%M:%S.%f`. -/
def DateFields.isoText (f : DateFields) : List Char :=
  padded 4 f.year ++ '-' :: (padded 2 f.month ++ '-' :: (padded 2 f.day ++ 'T' ::
    (padded 2 f.hour ++ ':' :: (padded 2 f.minute ++ ':' :: (padded 2 f.second ++ '.' ::
      padded 6 f.microsecond)))))

/-- `t.strftime("%Y-%m-%dT%H:%M:%S.%f")`. -/
def DateTime.strftime (t : DateTime) : Except PyError String :=
  if t.fields.year < 1900 then
    .error (.of .valueError ("year=" ++ toString t.fields.year ++
      " is before 1900; the datetime strftime() methods require year >= 1900"))
  else .ok (String.ofList t.fields.isoText)

/-! ## Reading -/

/-- `\d`, which is an ASCII digit. -/
def digitValue (c : Char) : Option Nat :=
  if '0' ≤ c ∧ c ≤ '9' then some (c.toNat - '0'.toNat) else none

/-- A character of the format; letters match in either case. -/
def literal (c : Char) : List Char → Option (List Char)
  | d :: cs => if c.toLower = d.toLower then some cs else none
  | [] => none

/-- `%Y`: four digits. -/
def readYear : List Char → Option (Nat × List Char)
  | c₁ :: c₂ :: c₃ :: c₄ :: cs => do
    let d₁ ← digitValue c₁
    let d₂ ← digitValue c₂
    let d₃ ← digitValue c₃
    let d₄ ← digitValue c₄
    some (1000 * d₁ + 100 * d₂ + 10 * d₃ + d₄, cs)
  | _ => none

/-- One digit. -/
def readDigit (low high : Nat) : List Char → Option (Nat × List Char)
  | c :: cs =>
    match digitValue c with
    | some d => if low ≤ d ∧ d ≤ high then some (d, cs) else none
    | none => none
  | [] => none

/-- Two digits or, where these are out of range, one. -/
def readNumber (low high : Nat) : List Char → Option (Nat × List Char)
  | c₁ :: c₂ :: cs =>
    match digitValue c₁, digitValue c₂ with
    | some d₁, some d₂ =>
      if low ≤ 10 * d₁ + d₂ ∧ 10 * d₁ + d₂ ≤ high then some (10 * d₁ + d₂, cs)
      else readDigit low high (c₁ :: c₂ :: cs)
    | _, _ => readDigit low high (c₁ :: c₂ :: cs)
  | cs => readDigit low high cs

/-- `%d`: a number or a blank and a digit. -/
def readDay : List Char → Option (Nat × List Char)
  | ' ' :: cs => readDigit 1 9 cs
  | cs => readNumber 1 31 cs

/-- `%f`: one to six digits, which end the text. -/
def readFraction (cs : List Char) : Option Nat := do
  let digits ← cs.mapM digitValue
  if 1 ≤ digits.length ∧ digits.length ≤ 6 then
    some (digits.foldl (fun n d => 10 * n + d) 0 * 10 ^ (6 - digits.length))
  else none

/-- The `datetime` constructor. -/
def DateTime.ofFields (f : DateFields) : Option DateTime :=
  if h : f.Valid then some ⟨f, none, h⟩ else none

/-- `%Y-%m-%d`. -/
def readDate (cs : List Char) : Option ((Nat × Nat × Nat) × List Char) := do
  let (year, cs) ← readYear cs
  let cs ← literal '-' cs
  let (month, cs) ← readNumber 1 12 cs
  let cs ← literal '-' cs
  let (day, cs) ← readDay cs
  some ((year, month, day), cs)

/-- `%H:%M:%S.%f`. -/
def readClock (cs : List Char) : Option (Nat × Nat × Nat × Nat) := do
  let (hour, cs) ← readNumber 0 23 cs
  let cs ← literal ':' cs
  let (minute, cs) ← readNumber 0 59 cs
  let cs ← literal ':' cs
  -- a leap second is read, and refused by the constructor
  let (second, cs) ← readNumber 0 61 cs
  let cs ← literal '.' cs
  let microsecond ← readFraction cs
  some (hour, minute, second, microsecond)

/-- `datetime.strptime(s, "%Y-%m-%dT%H:%M:%S.%f")`; `none` stands for its
`ValueError`. -/
def strptime (s : String) : Option DateTime := do
  let ((year, month, day), cs) ← readDate s.toList
  let cs ← literal 'T' cs
  let (hour, minute, second, microsecond) ← readClock cs
  DateTime.ofFields ⟨year, month, day, hour, minute, second, microsecond⟩

/-! ## What is written is read back -/

theorem digitValue_digitChar {d : Nat} (h : d < 10) : digitValue (Nat.digitChar d) = some d := by
  interval_cases d <;> rfl

theorem digitValue_mod (n : Nat) : digitValue (Nat.digitChar (n % 10)) = some (n % 10) :=
  digitValue_digitChar (Nat.mod_lt n (by decide))

theorem literal_self (c : Char) (cs : List Char) : literal c (c :: cs) = some cs := if_pos rfl

theorem readYear_padded {year : Nat} (h : year ≤ 9999) (cs : List Char) :
    readYear (padded 4 year ++ cs) = some (year, cs) := by
  show readYear (Nat.digitChar (year / 10 / 10 / 10 % 10) :: Nat.digitChar (year / 10 / 10 % 10) ::
    Nat.digitChar (year / 10 % 10) :: Nat.digitChar (year % 10) :: cs) = _
  simp only [readYear, digitValue_mod, Option.bind_eq_bind, Option.bind_some]
  have hyear : 1000 * (year / 10 / 10 / 10 % 10) + 100 * (year / 10 / 10 % 10) +
      10 * (year / 10 % 10) + year % 10 = year := by
    omega
  rw [hyear]

theorem readNumber_padded {low high n : Nat} (hlow : low ≤ n) (hhigh : n ≤ high) (h : n < 100)
    (cs : List Char) : readNumber low high (padded 2 n ++ cs) = some (n, cs) := by
  show readNumber low high (Nat.digitChar (n / 10 % 10) :: Nat.digitChar (n % 10) :: cs) = _
  simp only [readNumber, digitValue_mod]
  have hn : 10 * (n / 10 % 10) + n % 10 = n := by
    omega
  rw [hn, if_pos ⟨hlow, hhigh⟩]

theorem readDay_padded {day : Nat} (hlow : 1 ≤ day) (hhigh : day ≤ 31) (cs : List Char) :
    readDay (padded 2 day ++ cs) = some (day, cs) := by
  have hfirst : Nat.digitChar (day / 10 % 10) ≠ ' ' := by
    have hd : day / 10 % 10 < 10 := Nat.mod_lt _ (by omega)
    interval_cases day / 10 % 10 <;> decide
  rw [← readNumber_padded hlow hhigh (by omega) cs]
  show readDay (Nat.digitChar (day / 10 % 10) :: Nat.digitChar (day % 10) :: cs) =
    readNumber 1 31 (Nat.digitChar (day / 10 % 10) :: Nat.digitChar (day % 10) :: cs)
  unfold readDay
  split
  · next heq =>
    obtain ⟨hblank, -⟩ := List.cons.inj heq
    exact absurd hblank hfirst
  · rfl

theorem readFraction_padded {n : Nat} (h : n < 1000000) :
    readFraction (padded 6 n) = some n := by
  have hmap : (padded 6 n).mapM digitValue = some [n / 10 / 10 / 10 / 10 / 10 % 10,
      n / 10 / 10 / 10 / 10 % 10, n / 10 / 10 / 10 % 10, n / 10 / 10 % 10, n / 10 % 10,
      n % 10] := by
    show List.mapM digitValue [Nat.digitChar (n / 10 / 10 / 10 / 10 / 10 % 10),
      Nat.digitChar (n / 10 / 10 / 10 / 10 % 10), Nat.digitChar (n / 10 / 10 / 10 % 10),
      Nat.digitChar (n / 10 / 10 % 10), Nat.digitChar (n / 10 % 10), Nat.digitChar (n % 10)] = _
    simp only [List.mapM_cons, List.mapM_nil, digitValue_mod]
    rfl
  unfold readFraction
  rw [hmap]
  show some ((10 * (10 * (10 * (10 * (10 * (10 * 0 + _) + _) + _) + _) + _) + _) * 1) = _
  congr 1
  omega

theorem readDate_isoText {f : DateFields} (h : f.Valid) (cs : List Char) :
    readDate (padded 4 f.year ++ '-' :: (padded 2 f.month ++ '-' :: (padded 2 f.day ++ cs))) =
      some ((f.year, f.month, f.day), cs) := by
  have hday := Nat.le_trans h.day.2 (daysInMonth_le f.year f.month)
  have hmonth := h.month.2
  unfold readDate
  rw [readYear_padded h.year.2]
  simp only [Option.bind_eq_bind, Option.bind_some, literal_self,
    readNumber_padded h.month.1 hmonth (by omega), readDay_padded h.day.1 hday]

theorem readClock_isoText {f : DateFields} (h : f.Valid) :
    readClock (padded 2 f.hour ++ ':' :: (padded 2 f.minute ++ ':' :: (padded 2 f.second ++ '.' ::
      padded 6 f.microsecond))) = some (f.hour, f.minute, f.second, f.microsecond) := by
  have hhour := h.hour
  have hminute := h.minute
  have hsecond := h.second
  unfold readClock
  rw [readNumber_padded (Nat.zero_le f.hour) (by omega) (by omega)]
  simp only [Option.bind_eq_bind, Option.bind_some, literal_self,
    readNumber_padded (Nat.zero_le f.minute) (by omega : f.minute ≤ 59) (by omega),
    readNumber_padded (Nat.zero_le f.second) (by omega : f.second ≤ 61) (by omega),
    readFraction_padded h.microsecond]

/-- **What is written is read back**, without its zone. -/
theorem strptime_isoText (f : DateFields) (h : f.Valid) :
    strptime (String.ofList f.isoText) = some ⟨f, none, h⟩ := by
  unfold strptime DateFields.isoText
  rw [String.toList_ofList, readDate_isoText h]
  simp only [Option.bind_eq_bind, Option.bind_some, literal_self, readClock_isoText h]
  exact dif_pos h

end PolarBear.Py
