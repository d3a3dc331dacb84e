import PolarBear.Plans.Cell

/-!
# What the row of a plan shows

The row shows a step as passed only if its tool passed: whatever is lost, late, overwritten or
reported twice, no other status is ever taken for a pass. Each step shows what its tool came to
exactly if a report that says so is saved for it and no save falls between a report's read and its
save.
-/

namespace PolarBear.Plans

open PolarBear.Py
open PolarBear.Report (ReportColumns StepReport TestPlan recordResult reportSystem
  recordResult_entry replay_entry_of_notMem update_ok)
open PolarBear.Rmw (Event Serial prov writers replay)
open PolarBear.Worker (Report Status)
open PolarBear.Transition (Run)

/-! ## Replayed reports -/

section

variable {passratio : Nat → Nat → Int} {κ : Type} {reports : κ → StepReport}

/-- An entry is as it was, or is the status of a report for it. -/
theorem replay_entry_cases : ∀ (ks : List κ) {c c' : ReportColumns},
    replay (reportSystem passratio reports) c ks = some c' → ∀ a b,
      c'.result.entry a b = c.result.entry a b ∨
      ∃ k ∈ ks, (reports k).key = (a, b) ∧ c'.result.entry a b = some (reports k).status
  | [], _, _, h, _, _ => by
    cases h
    exact .inl rfl
  | k :: ks, c, c', h, a, b => by
    obtain ⟨d, hd, hrest⟩ := Option.bind_eq_some_iff.mp h
    rcases replay_entry_cases ks hrest a b with hsame | ⟨k', hk', hkey, hentry⟩
    · rw [hsame, recordResult_entry passratio (update_ok passratio hd)]
      split
      · next heq => exact .inr ⟨k, List.mem_cons_self .., heq.symm, rfl⟩
      · exact .inl rfl
    · exact .inr ⟨k', List.mem_cons_of_mem _ hk', hkey, hentry⟩

/-- **The entry of a replayed report** is its status, where the reports for it agree. -/
theorem replay_entry {ks : List κ} {c c' : ReportColumns}
    (h : replay (reportSystem passratio reports) c ks = some c')
    (hagree : ∀ k ∈ ks, ∀ k' ∈ ks, (reports k).key = (reports k').key →
      (reports k).status = (reports k').status) {k : κ} (hk : k ∈ ks) :
    c'.result.entry (reports k).api.caseId (reports k).api.description =
      some (reports k).status := by
  induction ks generalizing c k with
  | nil => cases hk
  | cons j ks ih =>
    obtain ⟨d, hd, hrest⟩ := Option.bind_eq_some_iff.mp h
    have hagree' : ∀ k ∈ ks, ∀ k' ∈ ks, (reports k).key = (reports k').key →
        (reports k).status = (reports k').status :=
      fun k hk k' hk' => hagree k (List.mem_cons_of_mem _ hk) k' (List.mem_cons_of_mem _ hk')
    by_cases hlater : ∃ k' ∈ ks, (reports k').key = (reports k).key
    · -- a later report for the entry says the same
      obtain ⟨k', hk', hkey⟩ := hlater
      have hentry := ih hrest hagree' hk'
      obtain ⟨hcase, hdescription⟩ := Prod.mk.inj hkey
      rw [hcase, hdescription] at hentry
      rw [hentry, hagree k hk k' (List.mem_cons_of_mem _ hk') hkey.symm]
    · have hkj : k = j := by
        rcases List.mem_cons.mp hk with rfl | htail
        · rfl
        · exact absurd ⟨k, htail, rfl⟩ hlater
      subst hkj
      rw [replay_entry_of_notMem passratio ks hrest (fun k' hk' he => hlater ⟨k', hk', he⟩),
        recordResult_entry passratio (update_ok passratio hd), if_pos rfl]

end

/-! ## Saved reports -/

variable {κ ι : Type} [DecidableEq ι] {S : Setting κ ι} {s s' : PlanState ι}
  {ls : List (ι × JobEvent)}

omit [DecidableEq ι] in
theorem mem_writers_rowEvents {i : ι} {n : Nat} :
    (i, n) ∈ writers (rowEvents ls) ↔ (i, .save n) ∈ ls := by
  rw [Rmw.mem_writers]
  unfold rowEvents
  rw [List.mem_filterMap]
  constructor
  · rintro ⟨⟨j, e⟩, hmem, hevent⟩
    cases e with
    | save m =>
      cases hevent
      exact hmem
    | read m => cases hevent
    | start => cases hevent
    | lose m => cases hevent
    | raise m inTime => cases hevent
  · exact fun h => ⟨_, h, rfl⟩

/-- A saved report is one that its job has sent. -/
theorem saved_sent (hrun : Run S.Step s ls s') {i : ι} {n : Nat} (h : (i, .save n) ∈ ls) :
    ∃ r, (s'.job i).sent[n]? = some r ∧ S.reports s' (i, n) = S.stepReport i r := by
  have hlast := saved_last hrun h
  have hr := List.getElem?_eq_getElem (l := (s'.job i).sent) (i := n) (by omega)
  exact ⟨_, hr, agrees_reports s' i n _ hr⟩

omit [DecidableEq ι] in
theorem reports_key (s : PlanState ι) (k : ι × Nat) :
    (S.reports s k).key = (S.job k.1).key := by
  unfold Setting.reports
  split <;> rfl

/-- **The row of a run** is the replay of some of its saved reports: of all, exactly if no save
falls between a report's read and its save. -/
theorem run_replay {row : TestPlan} (hrun : Run S.Step (S.initial row) ls s) :
    ∃ ks, replay (reportSystem S.passratio (S.reports s)) row.toReportColumns ks =
        some s.row.toReportColumns ∧
      (∀ k ∈ ks, (k.1, .save k.2) ∈ ls) ∧
      (Serial (rowEvents ls) ↔ ∀ i n, (i, .save n) ∈ ls → (i, n) ∈ ks) := by
  obtain ⟨rs, hrs, htracks⟩ := tracks_run (tracks_initial row) hrun (agrees_reports s)
  refine ⟨(prov (rowEvents ls)).cell, ?_, fun k hk => ?_, ?_⟩
  · have hreplay := Rmw.run_replay hrs
    rw [htracks.cell] at hreplay
    exact hreplay
  · exact mem_writers_rowEvents.mp ((Rmw.prov_subset_writers _).1 k hk)
  · rw [Rmw.serial_iff _ hrs]
    exact ⟨fun h i n hsave => h _ (mem_writers_rowEvents.mpr hsave),
      fun h k hk => h k.1 k.2 (mem_writers_rowEvents.mp hk)⟩

/-! ## Shown and saved -/

omit [DecidableEq ι] in
theorem honest_initial (row : TestPlan) (i : ι) : S.Honest i ((S.initial row).job i) :=
  fun _ hr => absurd hr List.not_mem_nil

/-- The row shows what came of the step. -/
def Setting.Shows (S : Setting κ ι) (row : TestPlan) (i : ι) : Prop :=
  ∃ status, S.verdict i = some status ∧
    row.result.entry (S.job i).api.caseId (S.job i).api.description = some (.str status.text)

/-- A report that says what came of the step is saved. -/
def Setting.Saved (S : Setting κ ι) (ls : List (ι × JobEvent)) (s : PlanState ι) (i : ι) : Prop :=
  ∃ n r, (i, .save n) ∈ ls ∧ (s.job i).sent[n]? = some r ∧ S.verdict i = some r.status

/-- The row shows neither status for a step. -/
def Setting.Fresh (S : Setting κ ι) (row : TestPlan) : Prop :=
  ∀ i (status : Status), row.result.entry (S.job i).api.caseId (S.job i).api.description ≠
    some (.str status.text)

theorem text_injective {a b : Status} (h : a.text = b.text) : a = b := by
  cases a <;> cases b <;> first | rfl | (revert h; decide)

/-- **No made-up pass.** -/
theorem passed_of_shown {row : TestPlan} (hrun : Run S.Step (S.initial row) ls s) {a b : String}
    (h : s.row.result.entry a b = some (.str "PASS")) :
    row.result.entry a b = some (.str "PASS") ∨
      ∃ i, (S.job i).key = (a, b) ∧ S.verdict i = some .pass := by
  obtain ⟨ks, hreplay, hsaved, -⟩ := run_replay hrun
  rcases replay_entry_cases ks hreplay a b with hsame | ⟨⟨i, n⟩, hk, hkey, hentry⟩
  · exact .inl (hsame ▸ h)
  · refine .inr ⟨i, (reports_key s (i, n)) ▸ hkey, ?_⟩
    obtain ⟨r, hr, hreport⟩ := saved_sent hrun (hsaved _ hk)
    have hhonest := job_invariant (I := S.Honest) (fun _ _ _ _ _ _ h hs => honest_step hs h) hrun
      (honest_initial row) i
    refine hhonest r (List.mem_of_getElem? hr) (text_injective ?_)
    rw [hentry, hreport] at h
    exact Json.str.inj (Option.some.inj h)

/-- **Shown exactly.** -/
theorem shows_iff {row : TestPlan} (hrun : Run S.Step (S.initial row) ls s)
    (hkeys : ∀ i j, (S.job i).key = (S.job j).key → i = j) (hfresh : S.Fresh row) :
    (∀ i, S.Shows s.row i) ↔ Serial (rowEvents ls) ∧ ∀ i, S.Saved ls s i := by
  obtain ⟨ks, hreplay, hsaved, hserial⟩ := run_replay hrun
  -- a job saves one report
  have hone : ∀ i n m, (i, JobEvent.save n) ∈ ls → (i, JobEvent.save m) ∈ ls → n = m := by
    intro i n m hn hm
    have hn' := saved_last hrun hn
    have hm' := saved_last hrun hm
    omega
  have hsame : ∀ k ∈ ks, ∀ k' ∈ ks, (S.reports s k).key = (S.reports s k').key → k = k' := by
    intro k hk k' hk' hkey
    rw [reports_key, reports_key] at hkey
    obtain ⟨i, n⟩ := k
    obtain ⟨j, m⟩ := k'
    cases hkeys i j hkey
    cases hone i n m (hsaved _ hk) (hsaved _ hk')
    rfl
  rw [hserial]
  constructor
  · intro hshown
    -- a step that is shown has a report among those that make up the row
    have hreported : ∀ i, ∃ n r, (i, n) ∈ ks ∧ (s.job i).sent[n]? = some r ∧
        S.verdict i = some r.status := by
      intro i
      obtain ⟨status, hverdict, hentry⟩ := hshown i
      rcases replay_entry_cases ks hreplay (S.job i).api.caseId (S.job i).api.description with
        hold | ⟨⟨j, n⟩, hk, hkey, hnew⟩
      · rw [hold] at hentry
        exact absurd hentry (hfresh i status)
      · rw [reports_key] at hkey
        cases hkeys j i hkey
        obtain ⟨r, hr, hreport⟩ := saved_sent hrun (hsaved _ hk)
        refine ⟨n, r, hk, hr, ?_⟩
        rw [hentry, hreport] at hnew
        rw [hverdict, text_injective (Json.str.inj (Option.some.inj hnew))]
    refine ⟨fun i n hsave => ?_, fun i => ?_⟩
    · obtain ⟨m, r, hk, -, -⟩ := hreported i
      cases hone i n m hsave (hsaved _ hk)
      exact hk
    · obtain ⟨n, r, hk, hr, hverdict⟩ := hreported i
      exact ⟨n, r, hsaved _ hk, hr, hverdict⟩
  · rintro ⟨hall, hreported⟩ i
    obtain ⟨n, r, hsave, hr, hverdict⟩ := hreported i
    have hreport := agrees_reports (S := S) s i n r hr
    have hentry := replay_entry hreplay
      (fun k hk k' hk' hkey => by rw [hsame k hk k' hk' hkey]) (hall i n hsave)
    rw [hreport] at hentry
    exact ⟨r.status, hverdict, hentry⟩

/-- **A plan from its workers to its row.** In every run of the jobs of a plan, whatever is lost,
late, raised or interleaved: a job that has ended has sent what its method sends where the reports
meet what they met; a step is shown as passed only if it was at the start or its tool passed; and
if the steps have entries of their own and none shows a status at the start, all of them show what
came of them exactly if a report that says so is saved for each and no save falls between a
report's read and its save. -/
theorem plan_shows_iff {row : TestPlan} (hrun : Run S.Step (S.initial row) ls s) :
    (∀ i, (s.job i).phase = .ended → S.session i (s.job i).met =
      ⟨(S.job i).server (s.job i).finishFlag, (s.job i).sent⟩) ∧
    (∀ a b, s.row.result.entry a b = some (.str "PASS") →
      row.result.entry a b = some (.str "PASS") ∨
        ∃ i, (S.job i).key = (a, b) ∧ S.verdict i = some .pass) ∧
    ((∀ i j, (S.job i).key = (S.job j).key → i = j) → S.Fresh row →
      ((∀ i, S.Shows s.row i) ↔ Serial (rowEvents ls) ∧ ∀ i, S.Saved ls s i)) := by
  refine ⟨fun i hended => ?_, fun a b => passed_of_shown hrun, shows_iff hrun⟩
  have hsound := job_invariant (I := S.Sound) (fun _ _ _ _ _ _ h hs => sound_step hs h) hrun
    (fun _ => rfl) i
  unfold Setting.Sound at hsound
  rw [hended] at hsound
  exact hsound

/-- Texts go over the wire as they are. -/
def wireText : PyVal → Json
  | .unicode t | .bytes t => .str t
  | .object _ => .null

/-- Two steps of case `1`: a page is fetched, and no docker daemon answers. -/
def fetchAndStart : Setting Unit Bool where
  tools := Worker.plainTools (pure ⟨200, .ok "hello"⟩) (pure (.bytes "", .bytes ""))
  strOther _ := "None"
  passratio s t := 100 * s / t
  wire := wireText
  job
    | false => ⟨.reported .get, [("url", .str "http://10.0.0.1/")], "report", ⟨1, 1, "1", "fetch"⟩⟩
    | true => ⟨.reported .startContainer, [], "report", ⟨1, 1, "1", "start"⟩⟩
  world _ := ()

theorem fetchAndStart_key (i j : Bool)
    (h : (fetchAndStart.job i).key = (fetchAndStart.job j).key) : i = j := by
  revert h
  cases i <;> cases j <;> decide

/-- Both reports are recorded at the same time. -/
def bothAtOnce : List (Bool × JobEvent) :=
  [(false, .start), (true, .start), (true, .read 0), (false, .read 0), (true, .save 0),
    (false, .save 0)]

/-- The step that failed is gone, and its case has passed. -/
theorem plan_failure_lost : ∃ s,
    Run fetchAndStart.Step (fetchAndStart.initial (Report.freshPlan [("1", .obj [])])) bothAtOnce
        s ∧
      (∀ i, (s.job i).phase = .ended) ∧
      s.row.result = .obj [("1", .obj [("fetch", .str "PASS")])] ∧
      ¬ ∀ i, fetchAndStart.Shows s.row i := by
  have hrun : ∃ s, Run fetchAndStart.Step
      (fetchAndStart.initial (Report.freshPlan [("1", .obj [])])) bothAtOnce s ∧
      (∀ i, (s.job i).phase = .ended) ∧
      s.row.result = .obj [("1", .obj [("fetch", .str "PASS")])] :=
    ⟨_, .cons ⟨_, _, .start rfl, rfl⟩ (.cons ⟨_, _, .start rfl, rfl⟩
      (.cons ⟨_, _, .read rfl rfl, rfl⟩
      (.cons ⟨_, _, .read rfl rfl, rfl⟩ (.cons ⟨_, _, .save rfl rfl rfl rfl, rfl⟩
      (.cons ⟨_, _, .save rfl rfl rfl rfl, rfl⟩ (.nil _)))))), fun i => by cases i <;> rfl, rfl⟩
  obtain ⟨s, hrun, hended, hresult⟩ := hrun
  refine ⟨s, hrun, hended, hresult, fun hshown => ?_⟩
  have hfresh : fetchAndStart.Fresh (Report.freshPlan [("1", .obj [])]) := by
    intro i status h
    cases i <;> cases h
  have hserial := (((plan_shows_iff hrun).2.2 fetchAndStart_key hfresh).mp hshown).1
  exact hserial [.read (true, 0)] (false, 0) [.write (true, 0)] [] rfl (true, 0)
    (List.mem_singleton_self _)

end PolarBear.Plans
