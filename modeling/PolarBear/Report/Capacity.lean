import PolarBear.Lib.Transition
import PolarBear.Py.JsonRoundTrip
import PolarBear.Report.Record

/-!
# Recorded results and the columns that hold them

`report_result` keeps the whole result map of a plan as JSON text in
`TestPlan.result`, and the counters in `TestPlan.summary`. Both columns are
`String(255)`; `message`, next to them, is a `MediumText`.

The text of the map grows with every case and step. A write that does not fit is
refused or, if the database is lenient, cut, and then the next report cannot
parse what it finds. `results_fit_iff` is the exact boundary over runs: what is
stored, with the new status in place of the old one, must not exceed 255
characters. The counters never do, as long as the map does not.
-/

namespace PolarBear.Report

open PolarBear.Py
open PolarBear.Transition (Run)

/-- The three columns as the table has them. -/
structure TextColumns where
  message : String
  result : String
  summary : String

/-- The capacity of `result` and `summary`, `String(255)`. -/
def columnLength : Nat := 255

/-- A row that the table takes as it is. -/
def TextColumns.fits (c : TextColumns) : Bool :=
  decide (c.result.length ≤ columnLength) && decide (c.summary.length ≤ columnLength)

/-- The first characters of a text. -/
def cut (s : String) : String := String.ofList (s.toList.take columnLength)

/-- `testplan_update`: a strict database refuses a text that does not fit, a
lenient one cuts it. -/
def testplanUpdate (strict : Bool) (values : TextColumns) : Option TextColumns :=
  if values.fits then some values
  else if strict then none
  else some { values with result := cut values.result, summary := cut values.summary }

variable (passratio : Nat → Nat → Int) (floatRepr : String → String)

/-- `json.loads` of a column. -/
def parsed (text : String) : Except PyError Json :=
  match loads floatRepr text with
  | some j => .ok j
  | none => .error (.of .valueError "No JSON object could be decoded")

/-- What `report_result` writes. -/
def reportText (r : StepReport) (plan : TextColumns) : Except PyError TextColumns := do
  let stored ← parsed floatRepr plan.result
  let case ← stored.getItem r.api.caseId
  let case ← case.setItem r.api.description r.status
  let res ← stored.setItem r.api.caseId case
  let message ← appendOut plan.message r.out
  let summaryResult ← parsed floatRepr plan.summary
  match res with
  | .obj fields =>
    let summaryResult ← updateSummary passratio fields summaryResult
    .ok ⟨message, dumps res, dumps summaryResult⟩
  | _ => .error (.of .attributeError "object has no attribute 'items'")

/-- `report_result` on the table; without a write the row stays. -/
def reportStored (strict : Bool) (r : StepReport) (plan : TextColumns) : TextColumns :=
  match reportText passratio floatRepr r plan with
  | .ok values => (testplanUpdate strict values).getD plan
  | .error _ => plan

/-! ## What is written, as values -/

/-- The summary before the first report, and after one. -/
def IsSummary (summ : List (String × Json)) : Prop :=
  summ = [] ∨ ∃ total failure sucessfully passratio : Int,
    summ = [("total", .int total), ("failure", .int failure),
      ("sucessfully", .int sucessfully), ("passratio", .int passratio)]

/-- The columns hold a result map and its summary. -/
structure Holds (fields summ : List (String × Json)) (plan : TextColumns) : Prop where
  result : plan.result = dumps (.obj fields)
  summary : plan.summary = dumps (.obj summ)
  plain : (Json.obj fields).plain = true
  isSummary : IsSummary summ

theorem plain_summary {summ : List (String × Json)} (h : IsSummary summ) :
    (Json.obj summ).plain = true := by
  rcases h with rfl | ⟨a, b, c, d, rfl⟩
  · decide
  · rfl

/-- The counters over any summary are a summary. -/
theorem summaryFields_eq {summ : List (String × Json)} (h : IsSummary summ)
    (res : List (String × Json)) :
    summaryFields passratio res summ =
      [("total", .int (caseCount res)), ("failure", .int (failCount res)),
        ("sucessfully", .int (caseCount res - failCount res : Nat)),
        ("passratio", .int (passratio (caseCount res - failCount res) (caseCount res)))] := by
  rcases h with rfl | ⟨a, b, c, d, rfl⟩
  · rfl
  · rfl

theorem Holds.loads_result {fields summ : List (String × Json)} {plan : TextColumns}
    (h : Holds fields summ plan) : loads floatRepr plan.result = some (.obj fields) := by
  rw [h.result, loads_dumps floatRepr h.plain]

theorem Holds.loads_summary {fields summ : List (String × Json)} {plan : TextColumns}
    (h : Holds fields summ plan) : loads floatRepr plan.summary = some (.obj summ) := by
  rw [h.summary, loads_dumps floatRepr (plain_summary h.isSummary)]

/-- **What a report writes** are the texts of the columns that `recordResult`
computes. -/
theorem reportText_eq {fields summ : List (String × Json)} {plan : TextColumns}
    (h : Holds fields summ plan) (r : StepReport) :
    reportText passratio floatRepr r plan =
      (fun c => ⟨c.message, dumps c.result, dumps c.summary⟩) <$>
        recordResult passratio r ⟨plan.message, .obj fields, .obj summ⟩ := by
  unfold reportText recordResult parsed
  rw [h.loads_result, h.loads_summary]
  simp only [bind, Except.bind]
  cases Json.getItem (.obj fields) r.api.caseId with
  | error e => rfl
  | ok case =>
    dsimp only
    cases case.setItem r.api.description r.status with
    | error e => rfl
    | ok case =>
      dsimp only
      cases Json.setItem (.obj fields) r.api.caseId case with
      | error e => rfl
      | ok res =>
        dsimp only
        cases appendOut plan.message r.out with
        | error e => rfl
        | ok message =>
          cases res with
          | obj res =>
            dsimp only
            cases updateSummary passratio res (.obj summ) <;> rfl
          | _ => rfl

/-- A write, in terms of the map that was stored. -/
theorem reportText_ok {fields summ : List (String × Json)} {plan w : TextColumns}
    (h : Holds fields summ plan) {r : StepReport} (hr : r.status.plain = true)
    (hw : reportText passratio floatRepr r plan = .ok w) :
    ∃ steps, fields.lookup r.api.caseId = some (.obj steps) ∧
      0 < caseCount (recorded r steps fields) ∧
      Holds (recorded r steps fields) (summaryFields passratio (recorded r steps fields) summ)
        w := by
  rw [reportText_eq passratio floatRepr h] at hw
  cases hrec : recordResult passratio r ⟨plan.message, .obj fields, .obj summ⟩ with
  | error e =>
    rw [hrec] at hw
    cases hw
  | ok c =>
    rw [hrec] at hw
    obtain ⟨fields', steps, summ', out, hf, hlook, hs, -, hpos, hc⟩ :=
      (recordResult_iff passratio r _ c).mp hrec
    cases hf
    cases hs
    have hsteps : (Json.obj steps).plain = true :=
      ((plain_obj fields).mp h.plain).2 _ (Dict.mem_of_lookup hlook)
    cases hw
    refine ⟨steps, hlook, hpos, ?_, ?_, plain_set h.plain (plain_set hsteps hr), ?_⟩
    · rw [hc]
    · rw [hc]
    · exact Or.inr ⟨_, _, _, _, summaryFields_eq passratio h.isSummary _⟩

/-! ## Lengths -/

/-- There is room for the report: what is stored, without the old status and
with the new one, or with a new entry, is at most 255 characters long. -/
def Room (fields : List (String × Json)) (r : StepReport) : Prop :=
  match fields.lookup r.api.caseId with
  | some (.obj steps) =>
    match steps.lookup r.api.description with
    | some old => (Json.obj fields).size + r.status.size ≤ columnLength + old.size
    | none => (Json.obj fields).size + quotedLength r.api.description + r.status.size +
        (if steps = [] then 2 else 4) ≤ columnLength
  | _ => True

/-- **The length of the new map.** -/
theorem size_recorded {fields steps : List (String × Json)} {r : StepReport}
    (hlook : fields.lookup r.api.caseId = some (.obj steps)) :
    (Json.obj (recorded r steps fields)).size ≤ columnLength ↔ Room fields r := by
  have hne : fields ≠ [] := by
    rintro rfl
    cases hlook
  have hne' : recorded r steps fields ≠ [] := by
    intro hnil
    have hself := Dict.lookup_set_self r.api.caseId
      (.obj (Dict.set r.api.description r.status steps)) fields
    unfold recorded at hnil
    rw [hnil] at hself
    cases hself
  have hsteps' : Dict.set r.api.description r.status steps ≠ [] := by
    intro hnil
    have hself := Dict.lookup_set_self r.api.description r.status steps
    rw [hnil] at hself
    cases hself
  have hmap := fieldsSize_set_old
    (v := .obj (Dict.set r.api.description r.status steps)) hlook
  rw [← size_obj hne, size_obj hsteps'] at hmap
  rw [size_obj hne']
  unfold Room recorded
  rw [hlook]
  dsimp only
  -- an old status is replaced; a new entry also takes its key and separators
  cases hold : steps.lookup r.api.description with
  | some old =>
    have hone := fieldsSize_set_old (v := r.status) hold
    have hsne : steps ≠ [] := by
      rintro rfl
      cases hold
    rw [size_obj hsne] at hmap
    dsimp only
    omega
  | none =>
    have hnew : r.api.description ∉ Dict.keys steps := by
      intro hmem
      obtain ⟨v, hv⟩ := (Dict.mem_keys_iff _ _).mp hmem
      rw [hold] at hv
      cases hv
    have hone := fieldsSize_set_new r.status hnew
    dsimp only
    by_cases hsne : steps = []
    · have htwo : (Json.obj steps).size = 2 := by rw [hsne]; rfl
      have hzero : fieldsSize steps = 0 := by rw [hsne]; rfl
      rw [if_pos hsne]
      omega
    · rw [size_obj hsne] at hmap
      rw [if_neg hsne]
      omega

/-- A number below a thousand has at most three digits. -/
theorem intLength_le {n : Int} (h0 : 0 ≤ n) (h : n < 1000) : intLength n ≤ 3 := by
  obtain ⟨m, rfl⟩ := Int.eq_ofNat_of_zero_le h0
  show natLength m ≤ 3
  unfold natLength
  split
  · omega
  · rw [Nat.digits_length_le_iff (by omega)]
    omega

/-- **The counters fit** when the map does. -/
theorem size_summaryFields
    (hratio : ∀ s t, s ≤ t → 0 < t → 0 ≤ passratio s t ∧ passratio s t ≤ 100)
    {res summ : List (String × Json)} (h : IsSummary summ) (hpos : 0 < caseCount res)
    (hres : (Json.obj res).size ≤ columnLength) :
    (Json.obj (summaryFields passratio res summ)).size ≤ columnLength := by
  have hne : res ≠ [] := by
    rintro rfl
    cases hpos
  rw [size_obj hne] at hres
  have hlen := length_le_fieldsSize res
  have hcount : caseCount res ≤ res.length := List.countP_le_length
  have hfail : failCount res ≤ res.length := List.countP_le_length
  unfold columnLength at hres ⊢
  obtain ⟨hlow, hhigh⟩ := hratio (caseCount res - failCount res) (caseCount res) (by omega) hpos
  have h₁ := intLength_le (n := caseCount res) (by omega) (by omega)
  have h₂ := intLength_le (n := failCount res) (by omega) (by omega)
  have h₃ := intLength_le (n := (caseCount res - failCount res : Nat)) (by omega) (by omega)
  have h₄ := intLength_le hlow (by omega)
  have hkeys : quotedLength "total" = 7 ∧ quotedLength "failure" = 9 ∧
      quotedLength "sucessfully" = 13 ∧ quotedLength "passratio" = 11 := by decide
  rw [summaryFields_eq passratio h, size_obj (by simp)]
  simp only [fieldsSize, Json.size]
  omega

/-! ## Runs -/

/-- A report, with a status of distinct keys and no floats. -/
def reportStep (strict : Bool) (r : StepReport) (plan plan' : TextColumns) : Prop :=
  r.status.plain = true ∧ plan' = reportStored passratio floatRepr strict r plan

/-- What the report writes fits, is stored as it is, and can be parsed again. -/
def Survives (r : StepReport) (plan plan' : TextColumns) : Prop :=
  ∀ w, reportText passratio floatRepr r plan = .ok w →
    w.result.length ≤ columnLength ∧ w.summary.length ≤ columnLength ∧ plan' = w ∧
      (∃ res, loads floatRepr plan'.result = some (.obj res)) ∧
      ∃ summ, loads floatRepr plan'.summary = some (.obj summ)

/-- If the report writes at all, there is room for it. -/
def HasRoom (r : StepReport) (plan : TextColumns) : Prop :=
  (∃ w, reportText passratio floatRepr r plan = .ok w) →
    ∀ fields, loads floatRepr plan.result = some (.obj fields) → Room fields r

/-- The invariant. -/
def Sound (plan : TextColumns) : Prop := ∃ fields summ, Holds fields summ plan

theorem reportStored_ok {strict : Bool} {r : StepReport} {plan w : TextColumns}
    (hw : reportText passratio floatRepr r plan = .ok w) (hfits : w.fits = true) :
    reportStored passratio floatRepr strict r plan = w := by
  unfold reportStored testplanUpdate
  rw [hw]
  dsimp only
  rw [if_pos hfits]
  rfl

/-- A report that is kept leaves a map and its summary again. -/
theorem reportStep_sound {strict : Bool} (r : StepReport) (plan plan' : TextColumns)
    (h : Sound plan) (hstep : reportStep passratio floatRepr strict r plan plan')
    (hsurvives : Survives passratio floatRepr r plan plan') : Sound plan' := by
  obtain ⟨fields, summ, hholds⟩ := h
  obtain ⟨hstatus, rfl⟩ := hstep
  cases hw : reportText passratio floatRepr r plan with
  | error e =>
    refine ⟨fields, summ, ?_⟩
    unfold reportStored
    rw [hw]
    exact hholds
  | ok w =>
    obtain ⟨steps, -, -, hnew⟩ := reportText_ok passratio floatRepr hholds hstatus hw
    obtain ⟨-, -, heq, -⟩ := hsurvives w hw
    rw [heq]
    exact ⟨_, _, hnew⟩

/-- **One report is kept exactly if there is room for it.** -/
theorem survives_iff {strict : Bool}
    (hratio : ∀ s t, s ≤ t → 0 < t → 0 ≤ passratio s t ∧ passratio s t ≤ 100)
    (r : StepReport) (plan plan' : TextColumns) (h : Sound plan)
    (hstep : reportStep passratio floatRepr strict r plan plan') :
    Survives passratio floatRepr r plan plan' ↔ HasRoom passratio floatRepr r plan := by
  obtain ⟨fields, summ, hholds⟩ := h
  obtain ⟨hstatus, rfl⟩ := hstep
  constructor
  · intro hsurvives hwrites fields' hfields'
    obtain ⟨w, hw⟩ := hwrites
    rw [hholds.loads_result] at hfields'
    cases hfields'
    obtain ⟨steps, hlook, -, hnew⟩ := reportText_ok passratio floatRepr hholds hstatus hw
    have hlen := (hsurvives w hw).1
    rw [hnew.result, length_dumps] at hlen
    exact (size_recorded hlook).mp hlen
  · intro hroom w hw
    obtain ⟨steps, hlook, hpos, hnew⟩ := reportText_ok passratio floatRepr hholds hstatus hw
    have hsize := (size_recorded hlook).mpr (hroom ⟨w, hw⟩ fields (hholds.loads_result floatRepr))
    have hresult : w.result.length ≤ columnLength := by
      rw [hnew.result, length_dumps]
      exact hsize
    have hsummary : w.summary.length ≤ columnLength := by
      rw [hnew.summary, length_dumps]
      exact size_summaryFields passratio hratio hholds.isSummary hpos hsize
    have hfits : w.fits = true := by
      unfold TextColumns.fits
      rw [decide_eq_true hresult, decide_eq_true hsummary]
      rfl
    have hstored : reportStored passratio floatRepr strict r plan = w :=
      reportStored_ok passratio floatRepr hw hfits
    rw [hstored]
    exact ⟨hresult, hsummary, rfl, ⟨_, hnew.loads_result floatRepr⟩,
      ⟨_, hnew.loads_summary floatRepr⟩⟩

/-- **Recorded results.** From a stored map and its summary, on a strict or a
lenient database: in a run of reports every text that is written fits, is stored
as it is and parses again, exactly if at every report that writes there is room
for it. -/
theorem results_fit_iff (strict : Bool)
    (hratio : ∀ s t, s ≤ t → 0 < t → 0 ≤ passratio s t ∧ passratio s t ≤ 100)
    {plan plan' : TextColumns} {fields summ : List (String × Json)}
    (hplan : Holds fields summ plan) (rs : List StepReport) :
    Run (fun r p p' => reportStep passratio floatRepr strict r p p' ∧
        Survives passratio floatRepr r p p') plan rs plan' ↔
      Run (fun r p p' => reportStep passratio floatRepr strict r p p' ∧
        HasRoom passratio floatRepr r p) plan rs plan' :=
  Run.congr (reportStep_sound passratio floatRepr)
    (survives_iff passratio floatRepr hratio) ⟨fields, summ, hplan⟩

/-- `int((float(s) / float(t)) * 100)`, rounded down from the exact quotient. -/
def exactRatio (s t : Nat) : Int := ((100 * s / t : Nat) : Int)

theorem exactRatio_le (s t : Nat) (hst : s ≤ t) (ht : 0 < t) :
    0 ≤ exactRatio s t ∧ exactRatio s t ≤ 100 := by
  unfold exactRatio
  have hle : 100 * s / t ≤ 100 := by
    rw [Nat.div_le_iff_le_mul_add_pred ht]
    have := Nat.mul_le_mul_left 100 hst
    rw [Nat.mul_comm t 100]
    omega
  exact ⟨Int.natCast_nonneg _, Int.ofNat_le.mpr hle⟩

/-- A plan with one case, before its first report. -/
def oneCase : TextColumns := ⟨"", dumps (.obj [("1", .obj [])]), dumps (.obj [])⟩

theorem holds_oneCase : Holds [("1", .obj [])] [] oneCase where
  result := rfl
  summary := rfl
  plain := by decide
  isSummary := Or.inl rfl

/-- The result applies to it. -/
theorem results_fit_oneCase :
    Run (fun r p p' => reportStep exactRatio id true r p p' ∧ Survives exactRatio id r p p') oneCase
        [stepReport "1" "Serial-Step-1" "PASS" "ok"]
        (reportStored exactRatio id true (stepReport "1" "Serial-Step-1" "PASS" "ok") oneCase) ↔
      Run (fun r p p' => reportStep exactRatio id true r p p' ∧ HasRoom exactRatio id r p) oneCase
        [stepReport "1" "Serial-Step-1" "PASS" "ok"]
        (reportStored exactRatio id true (stepReport "1" "Serial-Step-1" "PASS" "ok") oneCase) :=
  results_fit_iff exactRatio id true exactRatio_le holds_oneCase _

/-- A step name of `n` letters. -/
def longName (n : Nat) : String := String.ofList (List.replicate n 'a')

theorem quotedLength_longName (n : Nat) : quotedLength (longName n) = 2 + n := by
  have hone : escapedLength 'a' = 1 := by decide
  unfold quotedLength longName
  rw [String.toList_ofList, List.map_replicate, hone, List.sum_replicate_nat, Nat.mul_one]

/-- The first report on that plan, for any step name. -/
theorem reportText_oneCase (name : String) :
    ∃ w, reportText exactRatio id (stepReport "1" name "PASS" "ok") oneCase = .ok w ∧
      w.result.length = quotedLength name + 17 := by
  have hcase : isCase "1" = true := by decide
  have hrec := (recordResult_iff exactRatio (stepReport "1" name "PASS" "ok")
    ⟨oneCase.message, .obj [("1", .obj [])], .obj []⟩ _).mpr
    ⟨[("1", .obj [])], [], [], "ok", rfl, rfl, rfl, rfl,
      caseCount_pos (List.mem_singleton.mpr rfl) hcase, rfl⟩
  have hw := reportText_eq exactRatio id holds_oneCase (stepReport "1" name "PASS" "ok")
  rw [hrec] at hw
  refine ⟨_, hw, (length_dumps _).trans ?_⟩
  have hone : quotedLength "1" = 3 := by decide
  have hpass : quotedLength "PASS" = 6 := by decide
  show quotedLength "1" + (quotedLength name + quotedLength "PASS" + 4 + 0) + 4 + 0 = _
  omega

/-- **A step with a long name does not fit**: its first report makes the map 319
characters long, and a strict database refuses it. -/
theorem long_name_does_not_fit :
    Holds [("1", .obj [])] [] oneCase ∧
    ∃ w, reportText exactRatio id (stepReport "1" (longName 300) "PASS" "ok") oneCase = .ok w ∧
      w.result.length = 319 ∧ testplanUpdate true w = none := by
  obtain ⟨w, hw, hlen⟩ := reportText_oneCase (longName 300)
  rw [quotedLength_longName] at hlen
  refine ⟨holds_oneCase, w, hw, hlen, ?_⟩
  have hfits : w.fits = false := by
    unfold TextColumns.fits columnLength
    rw [hlen]
    rfl
  unfold testplanUpdate
  rw [hfits]
  rfl

end PolarBear.Report
