import PolarBear.Lib.ReadModifyWrite
import PolarBear.Report.Record

/-!
# Concurrent reports on one plan

The steps of a parallel case report at the same time, each through its own
`ReportRPCAPI`. A report touches the database twice: `TestPlan.get_by_id`
reads the row, `TestPlan.save` writes `message`, `result` and `summary` back
as whole values. Nothing spans the two, so the row is a cell under unlocked
read-modify-write, and `reportSystem` is that instance of `PolarBear.Rmw`.

`reports_kept_iff` is the exact boundary. If no save falls between a report's
own read and save, every status and every output is in the final row. If one
does, some report is gone: the converse holds for any reports whose statuses
the initial row does not already show.
-/

namespace PolarBear.Report

open PolarBear.Py
open PolarBear.Rmw (Event Phase Serial prov writers replay)

variable (passratio : Nat → Nat → Int) {ι : Type}

/-- Reports `reports i` against one row. A report whose computation raises
never saves. -/
def reportSystem (reports : ι → StepReport) : Rmw.System ι TestPlan ReportColumns where
  view row := row.toReportColumns
  put c row := { row with toReportColumns := c }
  view_put _ _ := rfl
  update i c := (recordResult passratio (reports i) c).toOption

/-- The entry a report is for. -/
def StepReport.key (r : StepReport) : String × String := (r.api.caseId, r.api.description)

/-- The row shows the report: its entry has its status, and its output is part
of the message. -/
def Kept (r : StepReport) (row : ReportColumns) : Prop :=
  row.result.entry r.api.caseId r.api.description = some r.status ∧
    ∃ out pre post, r.out = .str out ∧ row.message = pre ++ out ++ post

theorem update_ok {reports : ι → StepReport} {i : ι} {c c' : ReportColumns}
    (h : (reportSystem passratio reports).update i c = some c') :
    recordResult passratio (reports i) c = .ok c' := by
  have h' : (recordResult passratio (reports i) c).toOption = some c' := h
  cases hr : recordResult passratio (reports i) c with
  | error e => rw [hr] at h'; cases h'
  | ok d => rw [hr] at h'; cases h'; rfl

/-- A replay leaves an entry alone that none of its reports is for. -/
theorem replay_entry_of_notMem {reports : ι → StepReport} {a b : String} :
    ∀ (is : List ι) {c c' : ReportColumns},
      replay (reportSystem passratio reports) c is = some c' →
      (∀ i ∈ is, (reports i).key ≠ (a, b)) → c'.result.entry a b = c.result.entry a b
  | [], c, c', h, _ => by cases h; rfl
  | i :: is, c, c', h, hne => by
    obtain ⟨d, hd, hrest⟩ := Option.bind_eq_some_iff.mp h
    rw [replay_entry_of_notMem is hrest (fun j hj => hne j (List.mem_cons_of_mem _ hj)),
      recordResult_entry passratio (update_ok passratio hd),
      if_neg (fun e => hne i (List.mem_cons_self ..) e.symm)]

/-- A replay only appends to the message. -/
theorem replay_message_prefix {reports : ι → StepReport} :
    ∀ (is : List ι) {c c' : ReportColumns},
      replay (reportSystem passratio reports) c is = some c' →
      ∃ post, c'.message = c.message ++ post
  | [], c, c', h => by cases h; exact ⟨"", (String.append_empty ..).symm⟩
  | i :: is, c, c', h => by
    obtain ⟨d, hd, hrest⟩ := Option.bind_eq_some_iff.mp h
    obtain ⟨post, hpost⟩ := replay_message_prefix is hrest
    obtain ⟨out, -, hmsg⟩ := recordResult_message passratio (update_ok passratio hd)
    exact ⟨out ++ post, by rw [hpost, hmsg, String.append_assoc]⟩

/-- **Replayed reports are kept**, when no two of them are for one entry. -/
theorem replay_kept {reports : ι → StepReport}
    (hkeys : ∀ i j, (reports i).key = (reports j).key → i = j) :
    ∀ (is : List ι) {c c' : ReportColumns},
      replay (reportSystem passratio reports) c is = some c' →
      ∀ i ∈ is, Kept (reports i) c'
  | [], _, _, _, i, hi => absurd hi List.not_mem_nil
  | k :: is, c, c', h, i, hi => by
    obtain ⟨d, hd, hrest⟩ := Option.bind_eq_some_iff.mp h
    by_cases htail : i ∈ is
    · exact replay_kept hkeys is hrest i htail
    · have hik : i = k := by
        rcases List.mem_cons.mp hi with rfl | ht
        · rfl
        · exact absurd ht htail
      subst hik
      have hrec := update_ok passratio hd
      refine ⟨?_, ?_⟩
      · rw [replay_entry_of_notMem passratio is hrest (fun j hj e => htail (by
            rw [hkeys i j e.symm]; exact hj)),
          recordResult_entry passratio hrec, if_pos rfl]
      · obtain ⟨out, hout, hmsg⟩ := recordResult_message passratio hrec
        obtain ⟨post, hpost⟩ := replay_message_prefix passratio is hrest
        exact ⟨out, c.message, post, hout, by rw [hpost, hmsg]⟩

/-- **Which interleavings keep every report.** In any run in which every report
completes: if no save falls between a report's own read and save, the final row
shows them all; and when it shows them all although it showed none of their
statuses before, no save did. -/
theorem reports_kept_iff [DecidableEq ι] (reports : ι → StepReport)
    (hkeys : ∀ i j, (reports i).key = (reports j).key → i = j) (row : TestPlan)
    (evs : List (Event ι)) (s : Rmw.State ι TestPlan ReportColumns)
    (hrun : Rmw.run (reportSystem passratio reports) (Rmw.State.initial row) evs = some s)
    (hdone : ∀ i, s.phase i = .done) :
    (Serial evs → ∀ i, Kept (reports i) s.cell.toReportColumns) ∧
    ((∀ i, row.result.entry (reports i).api.caseId (reports i).api.description
        ≠ some (reports i).status) →
      (∀ i, Kept (reports i) s.cell.toReportColumns) → Serial evs) := by
  have hreplay : replay (reportSystem passratio reports) row.toReportColumns (prov evs).cell
      = some s.cell.toReportColumns := Rmw.run_replay hrun
  have hwrote : ∀ i, i ∈ writers evs := by
    intro i
    have hi := (Rmw.run_sound evs hrun).phases i
    rw [hdone i] at hi
    exact Rmw.mem_writers.mpr hi
  constructor
  · -- a serial run replays every report
    intro hser i
    have hmem := (Rmw.serial_iff evs hrun).mp hser i (hwrote i)
    exact replay_kept passratio hkeys _ hreplay i hmem
  · intro hnew hkept
    refine (Rmw.serial_iff evs hrun).mpr (fun j _ => ?_)
    by_contra hlost
    -- a report that is not replayed leaves its entry as it was
    have hsame := replay_entry_of_notMem passratio (a := (reports j).api.caseId)
      (b := (reports j).api.description) _ hreplay
      (fun i hi e => hlost (by rw [← hkeys i j e]; exact hi))
    exact hnew j (hsame ▸ (hkept j).1)

/-- Two steps of case `1` that report at the same time. -/
def twoReports : Bool → StepReport
  | false => stepReport "1" "Parallel-Step-1" "PASS" "ping ok\n"
  | true => stepReport "1" "Parallel-Step-2" "FAIL" "no route\n"

theorem twoReports_key (i j : Bool) (h : (twoReports i).key = (twoReports j).key) : i = j := by
  revert h
  cases i <;> cases j <;> decide

/-- One after the other, both are kept. -/
theorem reports_kept_iff_in_turn :
    ∃ s, Rmw.run (reportSystem (fun s t => 100 * s / t) twoReports)
        (Rmw.State.initial (freshPlan [("1", .obj [])]))
        [.read false, .write false, .read true, .write true] = some s ∧
      ∀ i, Kept (twoReports i) s.cell.toReportColumns := by
  refine ⟨_, rfl, (reports_kept_iff (fun s t => 100 * s / t) twoReports twoReports_key
    (freshPlan [("1", .obj [])]) [.read false, .write false, .read true, .write true] _ rfl
    (fun i => by cases i <;> rfl)).1 ?_⟩
  have hrun : Rmw.run (reportSystem (fun s t => 100 * s / t) twoReports)
      (Rmw.State.initial (freshPlan [("1", .obj [])]))
      [.read false, .write false, .read true, .write true] = some _ := rfl
  exact (Rmw.serial_iff _ hrun).mpr (by decide)

/-- **Both read before either saves**: the first save is overwritten, and its
report is gone from the row although both calls completed. -/
theorem report_lost :
    ∃ s, Rmw.run (reportSystem (fun s t => 100 * s / t) twoReports)
        (Rmw.State.initial (freshPlan [("1", .obj [])]))
        [.read false, .read true, .write false, .write true] = some s ∧
      (∀ i, s.phase i = .done) ∧ ¬ Kept (twoReports false) s.cell.toReportColumns := by
  refine ⟨_, rfl, fun i => by cases i <;> rfl, fun hkept => ?_⟩
  have hentry : (none : Option Json) = some (.str "PASS") := hkept.1
  cases hentry

end PolarBear.Report
