import PolarBear.Report.Summary

/-!
# `ReportRPCAPI.report_result`: recording one step result

A `TestPlan` row carries the outcome of a plan in three columns: `result`
(JSON: case id → step → status), `summary` (JSON counters) and `message` (the
concatenated step outputs). `reportResult` is one call of `report_result`: it
loads the row, overwrites one entry of the result, appends to the message,
recomputes the summary and saves the three columns.

A text column that holds JSON is modelled by the value it parses to, so
`json.loads` and `json.dumps` do not appear. `passratio` is the float
expression `int((float(s)/float(t))*100)`, a parameter: only its
`ZeroDivisionError` at `t = 0` matters here.

`recordResult_iff` says exactly when a call succeeds and what it stores;
`reportAll_faithful` carries this through any sequence of calls.
-/

namespace PolarBear.Report

open PolarBear.Py

/-- The columns of a `TestPlan` row that `report_result` writes back. -/
structure ReportColumns where
  message : String
  result : Json
  summary : Json

/-- A `TestPlan` row. `beginning` and `ending` are whole seconds. -/
structure TestPlan extends ReportColumns where
  id : Nat
  uuid : String
  testplanName : String
  status : String
  beginning : Nat
  ending : Nat

/-- The server object a worker reports to: one per dispatched step. -/
structure ReportRPCAPI where
  finishFlag : Int
  planId : Nat
  caseId : String
  description : String

/-- One `report_result(context, status, out)` call on its server object. -/
structure StepReport where
  api : ReportRPCAPI
  status : Json
  out : Json

variable (passratio : Nat → Nat → Int)

/-- `plan['message'] + out`. -/
def appendOut (message : String) : Json → Except PyError String
  | .str out => .ok (message ++ out)
  | _ => .error (.of .typeError "coercing to Unicode: need string or buffer")

/-- The five assignments into `summary_result`, `res` being the new result. -/
def updateSummary (res : List (String × Json)) (summaryResult : Json) : Except PyError Json := do
  let c := summary res
  let s ← summaryResult.setItem "total" (.int c.total)
  let s ← s.setItem "failure" (.int c.failure)
  let s ← s.setItem "sucessfully" (.int c.sucessfully)
  if c.total = 0 then .error (.of .zeroDivisionError "float division by zero")
  else s.setItem "passratio" (.int (passratio c.sucessfully c.total))

/-- What `report_result` computes between `get_by_id` and `save`: the new
values of the three columns. -/
def recordResult (r : StepReport) (plan : ReportColumns) : Except PyError ReportColumns := do
  let case ← plan.result.getItem r.api.caseId
  let case ← case.setItem r.api.description r.status
  let res ← plan.result.setItem r.api.caseId case
  let message ← appendOut plan.message r.out
  match res with
  | .obj fields =>
    let summaryResult ← updateSummary passratio fields plan.summary
    .ok ⟨message, res, summaryResult⟩
  | _ => .error (.of .attributeError "object has no attribute 'items'")

/-- `report_result` as one uninterrupted call: `get_by_id`, the computation,
`save`. -/
def reportResult (r : StepReport) (row : TestPlan) : Except PyError TestPlan :=
  match recordResult passratio r row.toReportColumns with
  | .ok c => .ok { row with toReportColumns := c }
  | .error e => .error e

/-- Calls run one after another; the first exception ends the run. -/
def reportAll (row : TestPlan) : List StepReport → Except PyError TestPlan
  | [] => .ok row
  | r :: rs =>
    match reportResult passratio r row with
    | .ok row' => reportAll row' rs
    | .error e => .error e

/-! ## One call -/

/-- The counters as they are written over the old summary. -/
def summaryFields (res summ : List (String × Json)) : List (String × Json) :=
  Dict.set "passratio" (.int (passratio (caseCount res - failCount res) (caseCount res)))
    (Dict.set "sucessfully" (.int (caseCount res - failCount res : Nat))
      (Dict.set "failure" (.int (failCount res))
        (Dict.set "total" (.int (caseCount res)) summ)))

theorem updateSummary_iff (res : List (String × Json)) (j j' : Json) :
    updateSummary passratio res j = .ok j' ↔
      ∃ summ, j = .obj summ ∧ 0 < caseCount res ∧ j' = .obj (summaryFields passratio res summ) := by
  unfold updateSummary
  rw [summary_eq]
  cases j with
  | obj summ =>
    simp only [Json.setItem, bind, Except.bind]
    by_cases h0 : caseCount res = 0
    · rw [if_pos h0]
      constructor
      · intro h; cases h
      · rintro ⟨_, _, hpos, _⟩; omega
    · rw [if_neg h0]
      constructor
      · intro h
        exact ⟨summ, rfl, Nat.pos_of_ne_zero h0, (Except.ok.inj h).symm⟩
      · rintro ⟨summ', hsumm, -, rfl⟩
        cases hsumm
        rfl
  | _ => simp [Json.setItem, bind, Except.bind]

/-- The new result map: the reported entry set inside its case. -/
def recorded (r : StepReport) (steps fields : List (String × Json)) : List (String × Json) :=
  Dict.set r.api.caseId (.obj (Dict.set r.api.description r.status steps)) fields

/-- **One call, exactly**: it succeeds when the case is stored as a
dictionary, the output is text, the summary is a dictionary and some key of
the result counts as a case; it then stores the entry, the longer message and
the recomputed counters. -/
theorem recordResult_iff (r : StepReport) (c c' : ReportColumns) :
    recordResult passratio r c = .ok c' ↔
      ∃ fields steps summ out, c.result = .obj fields ∧
        fields.lookup r.api.caseId = some (.obj steps) ∧ c.summary = .obj summ ∧
        r.out = .str out ∧ 0 < caseCount (recorded r steps fields) ∧
        c' = ⟨c.message ++ out, .obj (recorded r steps fields),
          .obj (summaryFields passratio (recorded r steps fields) summ)⟩ := by
  constructor
  · -- the assignments one by one: each that raises ends the call
    intro h
    unfold recordResult at h
    cases hcase : c.result.getItem r.api.caseId with
    | error e => simp [hcase, bind, Except.bind] at h
    | ok case =>
      obtain ⟨fields, hfields, hlook⟩ := Json.getItem_ok hcase
      cases hset : case.setItem r.api.description r.status with
      | error e => simp [hcase, hset, bind, Except.bind] at h
      | ok case' =>
        obtain ⟨steps, rfl, rfl⟩ := Json.setItem_ok hset
        rw [hcase, hfields] at h
        simp only [Json.setItem, bind, Except.bind] at h
        cases hout : appendOut c.message r.out with
        | error e => simp [hout] at h
        | ok message =>
          cases hup : updateSummary passratio (recorded r steps fields) c.summary with
          | error e =>
            simp only [recorded] at hup
            simp [hout, hup] at h
          | ok s =>
            obtain ⟨summ, hsumm, hpos, rfl⟩ := (updateSummary_iff passratio _ _ _).mp hup
            simp only [recorded] at hup
            simp only [hout, hup, Except.ok.injEq] at h
            unfold appendOut at hout
            cases ho : r.out with
            | str out =>
              simp only [ho, Except.ok.injEq] at hout
              exact ⟨fields, steps, summ, out, hfields, hlook, hsumm, rfl, hpos,
                by rw [← h, ← hout]; rfl⟩
            | _ => simp [ho] at hout
  · rintro ⟨fields, steps, summ, out, hfields, hlook, hsumm, hout, hpos, rfl⟩
    have hup := (updateSummary_iff passratio _ _ _).mpr ⟨summ, hsumm, hpos, rfl⟩
    unfold recordResult
    simp only [recorded] at hup hpos ⊢
    simp [hfields, Json.getItem, hlook, Json.setItem, hout, appendOut, hup, bind, Except.bind]

theorem entry_recorded_self {r : StepReport} {steps fields : List (String × Json)} :
    (Json.obj (recorded r steps fields)).entry r.api.caseId r.api.description
      = some r.status := by
  simp [Json.entry, recorded]

theorem entry_recorded_ne {r : StepReport} {steps fields : List (String × Json)} {a b : String}
    (hlook : fields.lookup r.api.caseId = some (.obj steps))
    (hne : (a, b) ≠ (r.api.caseId, r.api.description)) :
    (Json.obj (recorded r steps fields)).entry a b = (Json.obj fields).entry a b := by
  unfold Json.entry recorded
  by_cases ha : a = r.api.caseId
  · subst ha
    have hb : b ≠ r.api.description := fun e => hne (by rw [e])
    simp only [Dict.lookup_set_self, hlook]
    exact Dict.lookup_set_ne hb _ _
  · simp only [Dict.lookup_set_ne ha]

/-- What a successful call does to the entries: its own is the reported
status, every other is untouched. -/
theorem recordResult_entry {r : StepReport} {c c' : ReportColumns}
    (h : recordResult passratio r c = .ok c') (a b : String) :
    c'.result.entry a b =
      if (a, b) = (r.api.caseId, r.api.description) then some r.status
      else c.result.entry a b := by
  obtain ⟨fields, steps, summ, out, hfields, hlook, -, -, -, rfl⟩ :=
    (recordResult_iff passratio r c c').mp h
  split
  next heq =>
    obtain ⟨rfl, rfl⟩ := Prod.mk.inj heq
    exact entry_recorded_self
  next hne => rw [hfields]; exact entry_recorded_ne hlook hne

/-- A successful call appends its output, which is text. -/
theorem recordResult_message {r : StepReport} {c c' : ReportColumns}
    (h : recordResult passratio r c = .ok c') :
    ∃ out, r.out = .str out ∧ c'.message = c.message ++ out := by
  obtain ⟨_, _, _, out, -, -, -, hout, -, rfl⟩ := (recordResult_iff passratio r c c').mp h
  exact ⟨out, hout, rfl⟩

/-! ## Any sequence of calls -/

/-- The status that the last call for an entry carries. -/
def lastStatus (a b : String) : List StepReport → Option Json
  | [] => none
  | r :: rs => (lastStatus a b rs).or
      (if (a, b) = (r.api.caseId, r.api.description) then some r.status else none)

/-- The outputs in call order. -/
def outs : List StepReport → String
  | [] => ""
  | r :: rs => (match r.out with | .str o => o | _ => "") ++ outs rs

/-- A row as a submitted plan leaves it: `result` maps decimal case ids to
dictionaries from step name to status text, `summary` is a dictionary. -/
structure WellFormed (fields summ : List (String × Json)) (row : ReportColumns) : Prop where
  result : row.result = .obj fields
  summary : row.summary = .obj summ
  cases_nodup : (Dict.keys fields).Nodup
  decimal : ∀ k ∈ Dict.keys fields, isDecimal k
  steps : ∀ kv ∈ fields, ∃ steps, kv.2 = .obj steps ∧ (Dict.keys steps).Nodup ∧
    ∀ s ∈ steps, ∃ t, s.2 = .str t
  summary_nodup : (Dict.keys summ).Nodup

/-- A call the claim is about: its case is stored, its status is a non-empty
text and its output a text. -/
def WellFormedCall (fields : List (String × Json)) (r : StepReport) : Prop :=
  r.api.caseId ∈ Dict.keys fields ∧ (∃ t, r.status = .str t ∧ t ≠ "") ∧ ∃ o, r.out = .str o

/-- The counters that a call writes. -/
def counters : List String := ["total", "failure", "sucessfully", "passratio"]

theorem lookup_summaryFields {res summ : List (String × Json)} :
    (summaryFields passratio res summ).lookup "total" = some (.int (caseCount res)) ∧
    (summaryFields passratio res summ).lookup "failure" = some (.int (failCount res)) ∧
    (summaryFields passratio res summ).lookup "sucessfully" =
      some (.int (caseCount res - failCount res : Nat)) := by
  unfold summaryFields
  refine ⟨?_, ?_, ?_⟩
  · rw [Dict.lookup_set_ne (by decide), Dict.lookup_set_ne (by decide),
      Dict.lookup_set_ne (by decide), Dict.lookup_set_self]
  · rw [Dict.lookup_set_ne (by decide), Dict.lookup_set_ne (by decide), Dict.lookup_set_self]
  · rw [Dict.lookup_set_ne (by decide), Dict.lookup_set_self]

theorem lookup_summaryFields_other {res summ : List (String × Json)} {k : String}
    (hk : k ∉ counters) : (summaryFields passratio res summ).lookup k = summ.lookup k := by
  simp only [counters, List.mem_cons, List.not_mem_nil, or_false, not_or] at hk
  obtain ⟨h1, h2, h3, h4⟩ := hk
  unfold summaryFields
  rw [Dict.lookup_set_ne h4, Dict.lookup_set_ne h3, Dict.lookup_set_ne h2, Dict.lookup_set_ne h1]

theorem nodup_summaryFields {res summ : List (String × Json)} (h : (Dict.keys summ).Nodup) :
    (Dict.keys (summaryFields passratio res summ)).Nodup :=
  Dict.nodup_keys_set _ _ (Dict.nodup_keys_set _ _
    (Dict.nodup_keys_set _ _ (Dict.nodup_keys_set _ _ h)))

/-- **Step lemma.** A well-formed call on a well-formed row succeeds, leaves
the row well-formed with the same cases, and rewrites the three columns as
`recordResult_iff` says. -/
theorem reportResult_step {r : StepReport} {row : TestPlan} {fields summ : List (String × Json)}
    (hrow : WellFormed fields summ row.toReportColumns) (hr : WellFormedCall fields r)
    (hfit : ∃ k ∈ Dict.keys fields, isCase k = true) :
    ∃ row' fields' out, reportResult passratio r row = .ok row' ∧
      recordResult passratio r row.toReportColumns = .ok row'.toReportColumns ∧
      Dict.keys fields' = Dict.keys fields ∧ r.out = .str out ∧
      WellFormed fields' (summaryFields passratio fields' summ) row'.toReportColumns ∧
      row'.message = row.message ++ out ∧
      row' = { row with toReportColumns := row'.toReportColumns } := by
  obtain ⟨hmem, ⟨t, ht, -⟩, out, hout⟩ := hr
  obtain ⟨v, hv⟩ := (Dict.mem_keys_iff _ _).mp hmem
  obtain ⟨steps, hsteps, hsnd, htext⟩ := hrow.steps _ (Dict.mem_of_lookup hv)
  simp only at hsteps
  rw [hsteps] at hv
  have hkeys : Dict.keys (recorded r steps fields) = Dict.keys fields := Dict.keys_set _ hmem
  obtain ⟨k, hk, hcase⟩ := hfit
  have hpos : 0 < caseCount (recorded r steps fields) :=
    caseCount_pos (by rw [hkeys]; exact hk) hcase
  have hrec := (recordResult_iff passratio r row.toReportColumns _).mpr
    ⟨fields, steps, summ, out, hrow.result, hv, hrow.summary, hout, hpos, rfl⟩
  refine ⟨_, recorded r steps fields, out, by unfold reportResult; rw [hrec], hrec, hkeys, hout,
    ⟨rfl, rfl, by rw [hkeys]; exact hrow.cases_nodup, by rw [hkeys]; exact hrow.decimal, ?_,
      nodup_summaryFields passratio hrow.summary_nodup⟩, rfl, rfl⟩
  -- the statuses of the reported case are texts again
  intro kv hkv
  rcases Dict.mem_set hkv with rfl | hold
  · refine ⟨_, rfl, Dict.nodup_keys_set _ _ hsnd, fun s hs => ?_⟩
    rcases Dict.mem_set hs with rfl | hs'
    · exact ⟨t, ht⟩
    · exact htext s hs'
  · exact hrow.steps kv hold

/-- **Sequential recording is a faithful fold.** Whatever well-formed calls run
one after another, none raises; the entries are those of the last calls over
the initial ones, the outputs are appended in order, and after at least one
call the counters are those of the final map, over the case ids that fit a
Python `int`. -/
theorem reportAll_faithful (calls : List StepReport) :
    ∀ {row : TestPlan} {fields summ : List (String × Json)},
      WellFormed fields summ row.toReportColumns →
      (∀ r ∈ calls, WellFormedCall fields r) →
      (calls ≠ [] → ∃ k ∈ Dict.keys fields, isCase k = true) →
      ∃ row' fields' summ', reportAll passratio row calls = .ok row' ∧
        row'.result = .obj fields' ∧ row'.summary = .obj summ' ∧
        Dict.keys fields' = Dict.keys fields ∧
        (∀ a b, row'.result.entry a b = (lastStatus a b calls).or (row.result.entry a b)) ∧
        (calls = [] → row' = row) ∧
        (calls ≠ [] → summ'.lookup "total" = some (.int (caseCount fields')) ∧
          summ'.lookup "failure" = some (.int (failCount fields')) ∧
          summ'.lookup "sucessfully" =
            some (.int (caseCount fields' - failCount fields' : Nat))) ∧
        (∀ k, k ∉ counters → summ'.lookup k = summ.lookup k) ∧
        row'.message = row.message ++ outs calls ∧
        row' = { row with toReportColumns := row'.toReportColumns } := by
  induction calls with
  | nil =>
    intro row fields summ hrow _ _
    refine ⟨row, fields, summ, rfl, hrow.result, hrow.summary, rfl, fun a b => rfl,
      fun _ => rfl, fun h => absurd rfl h, fun k _ => rfl, ?_, rfl⟩
    simp [outs]
  | cons r rs ih =>
    intro row fields summ hrow hcalls hfit
    have hfit₀ := hfit (List.cons_ne_nil r rs)
    obtain ⟨row₁, fields₁, out, hok, hrec, hkeys, hout, hrow₁, hmsg, hframe⟩ :=
      reportResult_step passratio hrow (hcalls r (List.mem_cons_self ..)) hfit₀
    have hcalls₁ : ∀ q ∈ rs, WellFormedCall fields₁ q := by
      intro q hq
      obtain ⟨hmem, hrest⟩ := hcalls q (List.mem_cons_of_mem _ hq)
      exact ⟨by rw [hkeys]; exact hmem, hrest⟩
    obtain ⟨row', fields', summ', hrun, hres, hsum, hkeys', hentry, hnil, hcounts, hother,
      hmessage, hrest⟩ := ih hrow₁ hcalls₁ (fun _ => by rw [hkeys]; exact hfit₀)
    refine ⟨row', fields', summ', by unfold reportAll; rw [hok]; exact hrun, hres, hsum,
      hkeys'.trans hkeys, fun a b => ?_, fun h => absurd h (List.cons_ne_nil r rs), fun _ => ?_,
      fun k hk => ?_, ?_, ?_⟩
    · rw [hentry a b, recordResult_entry passratio hrec a b, lastStatus, Option.or_assoc]
      split
      next => rfl
      next => rw [Option.none_or]
    · -- the last call writes the counters that stand
      by_cases hrs : rs = []
      · rw [hnil hrs, hrow₁.summary] at hsum
        rw [hnil hrs, hrow₁.result] at hres
        cases hsum
        cases hres
        exact lookup_summaryFields passratio
      · exact hcounts hrs
    · rw [hother k hk, lookup_summaryFields_other passratio hk]
    · rw [hmessage, hmsg, outs, hout, String.append_assoc]
    · rw [hrest, hframe]

/-- The row of a freshly submitted plan with the given result map. -/
def freshPlan (result : List (String × Json)) : TestPlan :=
  ⟨⟨"", .obj result, .obj []⟩, 1, "8f4e", "linux test", "initing", 0, 0⟩

/-- The call of a step that reports `status` and `out`. -/
def stepReport (caseId description status out : String) : StepReport :=
  ⟨⟨1, 1, caseId, description⟩, .str status, .str out⟩

theorem wellFormed_freshPlan :
    WellFormed [("1", .obj [("Serial-Step-1", .str "PASS")])] []
      (freshPlan [("1", .obj [("Serial-Step-1", .str "PASS")])]).toReportColumns where
  result := rfl
  summary := rfl
  cases_nodup := by decide
  decimal k hk := by
    cases List.mem_singleton.mp hk
    refine ⟨by decide, fun c hc => ?_⟩
    cases List.mem_singleton.mp (show c ∈ ['1'] from hc)
    exact ⟨by decide, by decide⟩
  steps kv hkv := by
    cases List.mem_singleton.mp hkv
    exact ⟨_, rfl, by decide, fun s hs => ⟨"PASS", by cases List.mem_singleton.mp hs; rfl⟩⟩
  summary_nodup := by decide

/-- Two reports for the same step: the second status stands. -/
theorem reportAll_faithful_twice :
    ∃ row', reportAll (fun s t => 100 * s / t)
        (freshPlan [("1", .obj [("Serial-Step-1", .str "PASS")])])
        [stepReport "1" "Serial-Step-1" "PASS" "ok ", stepReport "1" "Serial-Step-1" "FAIL" "no"]
          = .ok row' ∧
      row'.result.entry "1" "Serial-Step-1" = some (.str "FAIL") ∧ row'.message = "ok no" := by
  have hcalls : ∀ r ∈ [stepReport "1" "Serial-Step-1" "PASS" "ok ",
      stepReport "1" "Serial-Step-1" "FAIL" "no"],
      WellFormedCall [("1", .obj [("Serial-Step-1", .str "PASS")])] r := by
    intro r hr
    rcases List.mem_cons.mp hr with rfl | hr'
    · exact ⟨by decide, ⟨"PASS", rfl, by decide⟩, "ok ", rfl⟩
    · cases List.mem_singleton.mp hr'
      exact ⟨by decide, ⟨"FAIL", rfl, by decide⟩, "no", rfl⟩
  obtain ⟨row', _, _, hok, -, -, -, hentry, -, -, -, hmsg, -⟩ :=
    reportAll_faithful (fun s t => 100 * s / t) _ wellFormed_freshPlan hcalls
      (fun _ => ⟨"1", by decide, by decide⟩)
  exact ⟨row', hok, by rw [hentry]; rfl, by rw [hmsg]; rfl⟩

/-- The counters as they would be if every case counted, after every run. -/
def CountsEveryCase (row : TestPlan) (calls : List StepReport) : Prop :=
  ∃ row' fields' summ', reportAll passratio row calls = .ok row' ∧
    row'.result = .obj fields' ∧ row'.summary = .obj summ' ∧
    summ'.lookup "total" = some (.int fields'.length) ∧
    summ'.lookup "failure" = some (.int (fields'.countP (fun kv => caseFails kv.2)))

/-- The two ways it does not: with no call the summary is the initial one, and
a case id past `sys.maxint` is skipped, so that a plan with no other case ends
in a `ZeroDivisionError`. -/
theorem reportAll_counts_not_every_case :
    ¬ CountsEveryCase (fun s t => 100 * s / t)
        (freshPlan [("1", .obj [("Serial-Step-1", .str "PASS")])]) [] ∧
    reportAll (fun s t => 100 * s / t) (freshPlan [("9223372036854775808", .obj [])])
        [stepReport "9223372036854775808" "Serial-Step-1" "PASS" "ok"]
      = .error (.of .zeroDivisionError "float division by zero") := by
  refine ⟨?_, rfl⟩
  rintro ⟨row', fields', summ', hok, -, hsum, htotal, -⟩
  cases hok
  cases hsum
  cases htotal

end PolarBear.Report
