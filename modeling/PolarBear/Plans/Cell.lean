import PolarBear.Plans.Pipeline

/-!
# The row of a plan is the cell of its reports

The jobs of a plan change its row only where a report is saved, and a save writes what its read has
seen. So the row of every run is the cell of the read-modify-write system of the reports that are
sent (`tracks_run`), and no report says that a step has passed unless its tool does
(`honest_step`).
-/

namespace PolarBear.Plans

open PolarBear.Py
open PolarBear.Report (ReportColumns StepReport TestPlan recordResult reportSystem
  recordResult_entry replay_entry_of_notMem update_ok)
open PolarBear.Rmw (Event Serial prov writers replay)
open PolarBear.Worker (Report Status)
open PolarBear.Transition (Run)

variable {κ ι : Type}

/-- What the tool of a job comes to; the linux methods never report it. -/
def Setting.verdict (S : Setting κ ι) (i : ι) : Option Status :=
  match (S.job i).method with
  | .ping | .runShell => none
  | .reported m =>
    match S.tool i m with
    | .ok (_, status) _ => some status
    | .error _ _ => some .fail

/-! ## Steps of a job -/

section

variable {S : Setting κ ι} {i : ι} {row c : ReportColumns} {s s' : JobState}

/-- The job has ended, or a report is on its way that says no more than the tool. -/
def Setting.Sends (S : Setting κ ι) (i : ι) (s s' : JobState) : Prop :=
  (s'.phase = .ended ∧ s'.sent = s.sent) ∨
    ∃ inTry r, s'.phase = .sending inTry ∧ s'.sent = s.sent ++ [r] ∧
      (r.status = .pass → S.verdict i = some .pass)

theorem sends_handle (e : PyError) : S.Sends i s (S.handle i e s) := by
  unfold Setting.handle
  split
  · exact .inl ⟨rfl, rfl⟩
  · exact .inl ⟨rfl, rfl⟩
  · split
    · exact .inr ⟨false, _, rfl, rfl, fun h => by cases h⟩
    · exact .inl ⟨rfl, rfl⟩

theorem sends_start : S.Sends i s (S.start i s) := by
  unfold Setting.start
  split
  · exact .inl ⟨rfl, rfl⟩
  · exact .inl ⟨rfl, rfl⟩
  · next m hm =>
    split
    · next out status w htool =>
      refine .inr ⟨true, _, rfl, rfl, fun h => ?_⟩
      unfold Setting.verdict
      rw [hm]
      dsimp only
      rw [htool]
      exact congrArg some h
    · exact sends_handle _

/-- **A job takes a step**: it sends a report or ends, or its report reads the row or is saved. -/
theorem jobStep_cases {e : JobEvent} (h : S.JobStep i row s e s' c) :
    (c = row ∧ S.Sends i s s' ∧ (∀ n, e ≠ .read n) ∧ ∀ n, e ≠ .save n) ∨
    (∃ n inTry, e = .read n ∧ n + 1 = s.sent.length ∧ s.phase = .sending inTry ∧ c = row ∧
      s'.phase = .recording inTry row ∧ s'.sent = s.sent) ∨
    ∃ n inTry seen r, e = .save n ∧ n + 1 = s.sent.length ∧ s.phase = .recording inTry seen ∧
      s.sent[n]? = some r ∧ recordResult S.passratio (S.stepReport i r) seen = .ok c ∧
      s'.phase = .ended ∧ s'.sent = s.sent := by
  cases h with
  | start h => exact .inl ⟨rfl, sends_start, by simp, by simp⟩
  | lose h => exact .inl ⟨rfl, .inl ⟨rfl, rfl⟩, by simp, by simp⟩
  | read h hn => exact .inr (.inl ⟨_, _, rfl, hn, h, rfl, rfl, rfl⟩)
  | save h hn hr hc => exact .inr (.inr ⟨_, _, _, _, rfl, hn, h, hr, hc, rfl, rfl⟩)
  | raise h =>
    refine .inl ⟨rfl, ?_, by simp, by simp⟩
    split
    · exact sends_handle _
    · exact .inl ⟨rfl, rfl⟩

theorem Setting.Sends.sent_prefix (h : S.Sends i s s') : s.sent <+: s'.sent := by
  rcases h with ⟨-, hsent⟩ | ⟨_, r, -, hsent, -⟩
  · exact hsent ▸ List.prefix_rfl
  · exact hsent ▸ List.prefix_append ..

/-- Reports are not taken back. -/
theorem sent_prefix {e : JobEvent} (h : S.JobStep i row s e s' c) : s.sent <+: s'.sent := by
  rcases jobStep_cases h with ⟨-, h, -⟩ | ⟨_, _, -, -, -, -, -, h⟩ |
    ⟨_, _, _, _, -, -, -, -, -, -, h⟩
  · exact h.sent_prefix
  · exact h ▸ List.prefix_rfl
  · exact h ▸ List.prefix_rfl

/-- No report says that a step has passed unless its tool does. -/
def Setting.Honest (S : Setting κ ι) (i : ι) (s : JobState) : Prop :=
  ∀ r ∈ s.sent, r.status = .pass → S.verdict i = some .pass

theorem honest_step {e : JobEvent} (hs : S.Honest i s) (h : S.JobStep i row s e s' c) :
    S.Honest i s' := by
  intro r hr hpass
  rcases jobStep_cases h with ⟨-, h, -⟩ | ⟨_, _, -, -, -, -, -, h⟩ |
    ⟨_, _, _, _, -, -, -, -, -, -, h⟩
  · rcases h with ⟨-, hsent⟩ | ⟨_, r', -, hsent, hr'⟩
    · exact hs r (hsent ▸ hr) hpass
    · rw [hsent] at hr
      rcases List.mem_append.mp hr with hold | hnew
      · exact hs r hold hpass
      · cases List.mem_singleton.mp hnew
        exact hr' hpass
  · exact hs r (h ▸ hr) hpass
  · exact hs r (h ▸ hr) hpass

end

/-! ## Runs -/

section

variable [DecidableEq ι] {S : Setting κ ι} {s s' : PlanState ι} {ls : List (ι × JobEvent)}

/-- What every step keeps of a job, a run keeps. -/
theorem job_invariant {I : ι → JobState → Prop}
    (hstep : ∀ i row s e s' c, S.JobStep i row s e s' c → I i s → I i s')
    (hrun : Run S.Step s ls s') (hs : ∀ i, I i (s.job i)) : ∀ i, I i (s'.job i) := by
  refine hrun.invariant (I := fun s => ∀ i, I i (s.job i)) (fun l s s' hs h i => ?_) hs
  obtain ⟨js, c, hjob, rfl⟩ := h
  dsimp only
  by_cases hi : i = l.1
  · subst hi
    rw [Function.update_self]
    exact hstep _ _ _ _ _ _ hjob (hs _)
  · rw [Function.update_of_ne hi]
    exact hs i

/-- What is true of a job and holds for good. -/
theorem job_stays {R : JobState → JobState → Prop} (hrefl : ∀ s, R s s)
    (htrans : ∀ s₁ s₂ s₃, R s₁ s₂ → R s₂ s₃ → R s₁ s₃)
    (hstep : ∀ i row s e s' c, S.JobStep i row s e s' c → R s s')
    (hrun : Run S.Step s ls s') (i : ι) : R (s.job i) (s'.job i) := by
  refine hrun.relates (R := fun s s' => R (s.job i) (s'.job i)) (fun s => hrefl _)
    (fun _ _ _ => htrans _ _ _) (fun l s s' h => ?_)
  obtain ⟨js, c, hjob, rfl⟩ := h
  dsimp only
  by_cases hi : i = l.1
  · subst hi
    rw [Function.update_self]
    exact hstep _ _ _ _ _ _ hjob
  · rw [Function.update_of_ne hi]
    exact hrefl _

theorem sent_prefix_run (hrun : Run S.Step s ls s') (i : ι) :
    (s.job i).sent <+: (s'.job i).sent :=
  job_stays (R := fun s s' => s.sent <+: s'.sent) (fun _ => List.prefix_rfl)
    (fun _ _ _ => List.IsPrefix.trans) (fun _ _ _ _ _ _ => sent_prefix) hrun i

theorem ended_run (hrun : Run S.Step s ls s') {i : ι} (hended : (s.job i).phase = .ended) :
    s'.job i = s.job i := by
  refine job_stays (R := fun s s' => s.phase = .ended → s' = s) (fun _ _ => rfl)
    (fun _ _ _ h h' hs => ?_) (fun i row s e s' c h hs => ?_) hrun i hended
  · have h₁ := h hs
    subst h₁
    exact h' hs
  · cases h with
    | start h => rw [h] at hs; cases hs
    | lose h => rw [h] at hs; cases hs
    | read h => rw [h] at hs; cases hs
    | save h => rw [h] at hs; cases hs
    | raise h => rw [h] at hs; cases hs

/-- A report that is saved is the last of its job. -/
theorem saved_last {i : ι} {n : Nat} (hrun : Run S.Step s ls s') (h : (i, .save n) ∈ ls) :
    n + 1 = (s'.job i).sent.length := by
  induction hrun with
  | nil s => cases h
  | @cons s s₁ s' l ls hstep hrest ih =>
    rcases List.mem_cons.mp h with rfl | htail
    · obtain ⟨js, c, hjob, rfl⟩ := hstep
      cases hjob with
      | save hphase hn =>
        have hstays := ended_run hrest (i := i) (by simp [JobState.meet])
        rw [hstays]
        simpa [JobState.meet] using hn
    · exact ih htail

/-! ## The row as a cell -/

/-- The reads and the saves of a run; a save is of the columns that its read has seen. -/
def rowEvent (l : ι × JobEvent) : Option (Event (ι × Nat)) :=
  match l.2 with
  | .read n => some (.read (l.1, n))
  | .save n => some (.write (l.1, n))
  | .start | .lose _ | .raise _ _ => none

def rowEvents (ls : List (ι × JobEvent)) : List (Event (ι × Nat)) := ls.filterMap rowEvent

/-- The reports that the jobs have sent. -/
def Setting.reports (S : Setting κ ι) (s : PlanState ι) (k : ι × Nat) : StepReport :=
  match (s.job k.1).sent[k.2]? with
  | some r => S.stepReport k.1 r
  | none => ⟨(S.job k.1).api, .null, .null⟩

/-- `reports` has the reports that are sent so far. -/
def Setting.Agrees (S : Setting κ ι) (reports : ι × Nat → StepReport) (s : PlanState ι) : Prop :=
  ∀ i n r, (s.job i).sent[n]? = some r → reports (i, n) = S.stepReport i r

/-- The reports of a job are where its clients are. -/
structure Follows (js : JobState) (phase : Nat → Rmw.Phase ReportColumns) : Prop where
  ahead : ∀ n, js.sent.length ≤ n → phase n = .idle
  sending : ∀ n inTry, js.phase = .sending inTry → n + 1 = js.sent.length → phase n = .idle
  recording : ∀ n inTry seen, js.phase = .recording inTry seen → n + 1 = js.sent.length →
    phase n = .holding seen

/-- The row is the cell. -/
structure Tracks (s : PlanState ι) (rs : Rmw.State (ι × Nat) TestPlan ReportColumns) : Prop where
  cell : rs.cell = s.row
  jobs : ∀ i, Follows (s.job i) (fun n => rs.phase (i, n))

theorem agrees_of_run {reports : ι × Nat → StepReport} (h : S.Agrees reports s')
    (hrun : Run S.Step s ls s') : S.Agrees reports s := by
  intro i n r hr
  obtain ⟨more, hmore⟩ := sent_prefix_run hrun i
  refine h i n r ?_
  rw [← hmore, List.getElem?_append_left (List.getElem?_eq_some_iff.mp hr).1]
  exact hr

omit [DecidableEq ι] in
theorem agrees_reports (s : PlanState ι) : S.Agrees (S.reports s) s := by
  intro i n r hr
  unfold Setting.reports
  rw [hr]

omit [DecidableEq ι] in
theorem tracks_initial (row : TestPlan) : Tracks (S.initial row) (Rmw.State.initial row) where
  cell := rfl
  jobs i := ⟨fun _ _ => rfl, fun _ _ _ _ => rfl, fun _ _ _ h _ => by cases h⟩

/-- One job moves. -/
theorem tracks_update {rs : Rmw.State (ι × Nat) TestPlan ReportColumns} (hs : Tracks s rs)
    (row : TestPlan) {i : ι} {js : JobState} {phase : ι × Nat → Rmw.Phase ReportColumns}
    (hothers : ∀ j n, j ≠ i → phase (j, n) = rs.phase (j, n))
    (hjob : Follows js (fun n => phase (i, n))) :
    Tracks ⟨row, Function.update s.job i js⟩ ⟨row, phase⟩ where
  cell := rfl
  jobs j := by
    dsimp only
    by_cases hj : j = i
    · subst hj
      rw [Function.update_self]
      exact hjob
    · rw [Function.update_of_ne hj]
      have h := hs.jobs j
      refine ⟨fun n hn => ?_, fun n t hp hn => ?_, fun n t seen hp hn => ?_⟩
      · exact (hothers j n hj).trans (h.ahead n hn)
      · exact (hothers j n hj).trans (h.sending n t hp hn)
      · exact (hothers j n hj).trans (h.recording n t seen hp hn)

omit [DecidableEq ι] in
/-- A job that sends a report or ends. -/
theorem Follows.sends {i : ι} {js js' : JobState} {phase : Nat → Rmw.Phase ReportColumns}
    (h : Follows js phase) (hsends : S.Sends i js js') : Follows js' phase := by
  rcases hsends with ⟨hended, hsent⟩ | ⟨t, r, hsending, hsent, -⟩
  · refine ⟨fun n hn => h.ahead n (hsent ▸ hn), fun n t hp => ?_, fun n t seen hp => ?_⟩
    · rw [hended] at hp
      cases hp
    · rw [hended] at hp
      cases hp
  · have hlength : js'.sent.length = js.sent.length + 1 := by rw [hsent]; simp
    refine ⟨fun n hn => h.ahead n (by omega), fun n _ _ hn => h.ahead n (by omega),
      fun n t seen hp => ?_⟩
    rw [hsending] at hp
    cases hp

/-- The last report of a job moves. -/
theorem Follows.update {js js' : JobState} {phase : ι × Nat → Rmw.Phase ReportColumns} {i : ι}
    {n : Nat} {p : Rmw.Phase ReportColumns} (h : Follows js (fun m => phase (i, m)))
    (hn : n + 1 = js.sent.length) (hsent : js'.sent = js.sent)
    (hsending : ∀ t, js'.phase ≠ .sending t)
    (hrecording : ∀ t seen, js'.phase = .recording t seen → p = .holding seen) :
    Follows js' (fun m => Function.update phase (i, n) p (i, m)) := by
  refine ⟨fun m hm => ?_, fun m t hp => absurd hp (hsending t), fun m t seen hp hm => ?_⟩
  · have hne : (i, m) ≠ (i, n) := by
      rintro ⟨⟩
      rw [hsent] at hm
      omega
    rw [Function.update_of_ne hne]
    exact h.ahead m (hsent ▸ hm)
  · rw [hsent] at hm
    cases show m = n by omega
    rw [Function.update_self]
    exact hrecording t seen hp

/-- The read of an idle report. -/
theorem run_read {reports : ι × Nat → StepReport} {k : ι × Nat}
    {rs : Rmw.State (ι × Nat) TestPlan ReportColumns} (hidle : rs.phase k = .idle) :
    Rmw.run (reportSystem S.passratio reports) rs [.read k] =
      some ⟨rs.cell, Function.update rs.phase k (.holding rs.cell.toReportColumns)⟩ := by
  simp only [Rmw.run, Rmw.step, hidle]
  rfl

/-- The save of a report, of what it makes of the columns it has read. -/
theorem run_save {reports : ι × Nat → StepReport} {k : ι × Nat} {seen c : ReportColumns}
    {rs : Rmw.State (ι × Nat) TestPlan ReportColumns} (hholding : rs.phase k = .holding seen)
    (hc : recordResult S.passratio (reports k) seen = .ok c) :
    Rmw.run (reportSystem S.passratio reports) rs [.write k] =
      some ⟨{ rs.cell with toReportColumns := c }, Function.update rs.phase k .done⟩ := by
  have hupdate : (reportSystem S.passratio reports).update k seen = some c := by
    show (recordResult S.passratio (reports k) seen).toOption = some c
    rw [hc]
    rfl
  simp only [Rmw.run, Rmw.step, hholding, hupdate]
  rfl

/-- **A step of the plan is a step of the cell**, or none. -/
theorem tracks_step {reports : ι × Nat → StepReport}
    {rs : Rmw.State (ι × Nat) TestPlan ReportColumns} {l : ι × JobEvent} (hs : Tracks s rs)
    (h : S.Step l s s') (hagrees : S.Agrees reports s) :
    ∃ rs', Rmw.run (reportSystem S.passratio reports) rs (rowEvents [l]) = some rs' ∧
      Tracks s' rs' := by
  obtain ⟨i, e⟩ := l
  obtain ⟨js, c, hjob, rfl⟩ := h
  dsimp only at hjob
  have hjobs := hs.jobs i
  have hothers : ∀ (n : Nat) (p : Rmw.Phase ReportColumns) (j : ι) (m : Nat), j ≠ i →
      Function.update rs.phase (i, n) p (j, m) = rs.phase (j, m) :=
    fun n p j m hj => Function.update_of_ne (fun h => hj (congrArg Prod.fst h)) ..
  rcases jobStep_cases hjob with ⟨rfl, hsends, hread, hsave⟩ |
    ⟨n, inTry, rfl, hn, hphase, rfl, hphase', hsent⟩ |
    ⟨n, inTry, seen, r, rfl, hn, hphase, hr, hc, hphase', hsent⟩
  · -- the row is as it was
    have hnone : rowEvents [(i, e)] = [] := by
      cases e with
      | read n => exact absurd rfl (hread n)
      | save n => exact absurd rfl (hsave n)
      | start => rfl
      | lose n => rfl
      | raise n inTime => rfl
    have hrow : rs = ⟨s.row, rs.phase⟩ := by rw [← hs.cell]
    rw [hnone, hrow]
    exact ⟨_, rfl, tracks_update hs s.row (fun _ _ _ => rfl) (hjobs.sends hsends)⟩
  · -- the report reads the row
    refine ⟨⟨s.row, Function.update rs.phase (i, n) (.holding s.row.toReportColumns)⟩, ?_,
      tracks_update hs s.row (hothers n _) (hjobs.update hn hsent (fun t h => ?_)
        (fun t seen h => ?_))⟩
    · show Rmw.run _ rs [.read (i, n)] = _
      rw [run_read (hjobs.sending n inTry hphase hn), hs.cell]
    · rw [hphase'] at h
      cases h
    · rw [hphase'] at h
      cases h
      rfl
  · -- the report is saved
    refine ⟨⟨{ s.row with toReportColumns := c }, Function.update rs.phase (i, n) .done⟩, ?_,
      tracks_update hs _ (hothers n _) (hjobs.update hn hsent (fun t h => ?_)
        (fun t seen h => ?_))⟩
    · show Rmw.run _ rs [.write (i, n)] = _
      rw [run_save (hjobs.recording n inTry seen hphase hn) (by rw [hagrees i n r hr, hc]), hs.cell]
    · rw [hphase'] at h
      cases h
    · rw [hphase'] at h
      cases h

omit [DecidableEq ι] in
theorem rowEvents_cons (l : ι × JobEvent) (ls : List (ι × JobEvent)) :
    rowEvents (l :: ls) = rowEvents [l] ++ rowEvents ls := by
  unfold rowEvents
  rw [← List.filterMap_append]
  rfl

/-- **The row of a run is the cell of its reports.** -/
theorem tracks_run {reports : ι × Nat → StepReport}
    {rs : Rmw.State (ι × Nat) TestPlan ReportColumns} (hs : Tracks s rs)
    (hrun : Run S.Step s ls s') (hagrees : S.Agrees reports s') :
    ∃ rs', Rmw.run (reportSystem S.passratio reports) rs (rowEvents ls) = some rs' ∧
      Tracks s' rs' := by
  induction hrun generalizing rs with
  | nil s => exact ⟨rs, rfl, hs⟩
  | @cons s s₁ s' l ls hstep hrest ih =>
    obtain ⟨rs₁, hfirst, hs₁⟩ :=
      tracks_step hs hstep (agrees_of_run hagrees (.cons hstep hrest))
    obtain ⟨rs', hlast, hs'⟩ := ih hs₁ hagrees
    refine ⟨rs', ?_, hs'⟩
    rw [rowEvents_cons, Rmw.run_append, hfirst]
    exact hlast

end

end PolarBear.Plans
