import PolarBear.Lib.Transition
import PolarBear.Report.Interleave
import PolarBear.Worker.Answered

/-!
# A plan from its workers to its row

The steps of a plan run at the same time. Each is a job: a worker calls a method of a plugin, the
method runs its tool and reports, and the `ReportRPCAPI` of the step records the report in the row
of the plan. A report may be lost, and the worker then goes on as after an answer; recording reads
the row and saves it later; and an exception of the server comes back to the worker, whose handler
reports the step as failed, if the report was the one in the `try` block.

`Setting.Step` interleaves all of these. It is the composition of two models: an ended job has sent
what `Worker.call` sends where its reports meet what they met (`Setting.Sound`), and the row
changes as in the read-modify-write system of its reports (`Tracks`).
-/

namespace PolarBear.Plans

open PolarBear.Py
open PolarBear.Fallible
open PolarBear.Report (ReportColumns ReportRPCAPI StepReport TestPlan recordResult reportSystem)
open PolarBear.Worker (Delivery Report ReportedMethod Status StepMethod Tools stepTool)

/-- The call that a worker gets, and the server that waits for its report. -/
structure Job where
  method : StepMethod
  parameters : List (String × Json)
  topic : String
  api : ReportRPCAPI

/-- The entry of the result that a job is for. -/
def Job.key (j : Job) : String × String := (j.api.caseId, j.api.description)

/-- The jobs of a plan. `world i` is the world that the tool of job `i` finds, and `wire` what
`jsonutils` makes of an output on its way to the server. -/
structure Setting (κ ι : Type) where
  tools : Tools κ
  strOther : Json → String
  passratio : Nat → Nat → Int
  wire : PyVal → Json
  job : ι → Job
  world : ι → κ

/-- The method name in a report. -/
def reportName : ReportedMethod → String
  | .get | .post | .startContainer | .removeContainer => "get"
  | .dockerCommand => "docker_command"

/-- What the handler of a method makes of a message. -/
def handlerOut : ReportedMethod → PyVal → Except PyError PyVal
  | .get | .post => Worker.httpHandlerOut
  | .startContainer | .removeContainer | .dockerCommand => Worker.dockerHandlerOut

def Job.report (j : Job) (m : ReportedMethod) (out : PyVal) (status : Status) : Report :=
  ⟨j.topic, reportName m, out, status, getParam j.parameters "stepid"⟩

/-! ## One job -/

/-- How far a job has come; `inTry` says that its report stands in the `try` block. -/
inductive JobPhase where
  | waiting
  | sending (inTry : Bool)
  | recording (inTry : Bool) (seen : ReportColumns)
  | ended

/-- The flag of its server, the reports it has sent, and what became of them. -/
structure JobState where
  phase : JobPhase
  finishFlag : Int
  sent : List Report
  met : List Delivery

/-- What happens to a job; reports are numbered. -/
inductive JobEvent where
  | start
  | lose (n : Nat)
  | read (n : Nat)
  | save (n : Nat)
  | raise (n : Nat) (inTime : Bool)
  deriving DecidableEq, Repr

def Job.waiting (j : Job) : JobState := ⟨.waiting, j.api.finishFlag, [], []⟩

def JobState.send (inTry : Bool) (r : Report) (s : JobState) : JobState :=
  { s with phase := .sending inTry, sent := s.sent ++ [r] }

/-- The report on its way has met `d`. -/
def JobState.meet (d : Delivery) (s : JobState) : JobState :=
  { s with phase := .ended, met := s.met ++ [d] }

section

variable {κ ι : Type} (S : Setting κ ι) (i : ι)

/-- The run of the tool of a job. -/
def Setting.tool (m : ReportedMethod) : EStateM.Result PyError κ (PyVal × Status) :=
  (stepTool S.tools S.strOther m (S.job i).parameters).run (S.world i)

/-- The handler, for the exception `e`. -/
def Setting.handle (e : PyError) (s : JobState) : JobState :=
  match (S.job i).method with
  | .ping | .runShell => { s with phase := .ended }
  | .reported m =>
    match handlerOut m e.message with
    | .ok out => s.send false ((S.job i).report m out .fail)
    | .error _ => { s with phase := .ended }

/-- The tool runs and its report is on its way. The linux methods raise before they send one. -/
def Setting.start (s : JobState) : JobState :=
  match (S.job i).method with
  | .ping | .runShell => { s with phase := .ended }
  | .reported m =>
    match S.tool i m with
    | .ok (out, status) _ => s.send true ((S.job i).report m out status)
    | .error e _ => S.handle i e s

/-- The call of `report_result` for a report. -/
def Setting.stepReport (r : Report) : StepReport :=
  ⟨(S.job i).api, .str r.status.text, S.wire r.out⟩

/-- A step of a job, on the columns of the row. -/
inductive Setting.JobStep (row : ReportColumns) (s : JobState) :
    JobEvent → JobState → ReportColumns → Prop
  | start (h : s.phase = .waiting) : JobStep row s .start (S.start i s) row
  | lose {n : Nat} {inTry : Bool} (h : s.phase = .sending inTry) (hn : n + 1 = s.sent.length) :
      JobStep row s (.lose n) (s.meet .lost) row
  -- the flag goes down before the row is read
  | read {n : Nat} {inTry : Bool} (h : s.phase = .sending inTry) (hn : n + 1 = s.sent.length) :
      JobStep row s (.read n)
        { s with phase := .recording inTry row, finishFlag := s.finishFlag - 1 } row
  | save {n : Nat} {inTry : Bool} {seen c : ReportColumns} {r : Report}
      (h : s.phase = .recording inTry seen) (hn : n + 1 = s.sent.length)
      (hr : s.sent[n]? = some r)
      (hc : recordResult S.passratio (S.stepReport i r) seen = .ok c) :
      JobStep row s (.save n) (s.meet (.handled (.ok ()) true)) c
  | raise {n : Nat} {inTry inTime : Bool} {seen : ReportColumns} {r : Report} {e : PyError}
      (h : s.phase = .recording inTry seen) (hn : n + 1 = s.sent.length)
      (hr : s.sent[n]? = some r)
      (he : recordResult S.passratio (S.stepReport i r) seen = .error e) :
      JobStep row s (.raise n inTime)
        (if inTry && inTime then S.handle i e (s.meet (.handled (.error e) inTime))
          else s.meet (.handled (.error e) inTime)) row

end

/-! ## The plan -/

/-- The row and the jobs. -/
structure PlanState (ι : Type) where
  row : TestPlan
  job : ι → JobState

section

variable {κ ι : Type} [DecidableEq ι] (S : Setting κ ι)

/-- One job takes a step. -/
def Setting.Step (l : ι × JobEvent) (s s' : PlanState ι) : Prop :=
  ∃ js c, S.JobStep l.1 s.row.toReportColumns (s.job l.1) l.2 js c ∧
    s' = ⟨{ s.row with toReportColumns := c }, Function.update s.job l.1 js⟩

/-- No job has started. -/
def Setting.initial (row : TestPlan) : PlanState ι := ⟨row, fun i => (S.job i).waiting⟩

/-! ## A job is a call of its method -/

/-- What the `n`-th report meets. -/
def deliverOf (met : List Delivery) (n : Nat) : Delivery := met.getD n .lost

/-- What the call of the method does, where its reports meet `met`. -/
def Setting.session (i : ι) (met : List Delivery) : Worker.Session :=
  (endState ((Worker.call S.tools S.strOther (deliverOf met) (S.job i).method
    (S.job i).parameters (S.job i).topic).run
      (Worker.Run.start (S.job i).api (S.world i)))).session

omit [DecidableEq ι] in
theorem callReported_eq (deliver : Nat → Delivery) (m : ReportedMethod) (j : Job) :
    Worker.callReported S.tools S.strOther deliver m j.parameters j.topic =
      Worker.reportedStep deliver j.topic (reportName m) (getParam j.parameters "stepid")
        (stepTool S.tools S.strOther m j.parameters) (handlerOut m) := by
  cases m <;> rfl

/-- The server of the job, at another flag. -/
def Job.server (j : Job) (flag : Int) : ReportRPCAPI := { j.api with finishFlag := flag }

section

variable {S} {i : ι} {m : ReportedMethod} {out : PyVal} {status : Status} {e : PyError} {w : κ}

omit [DecidableEq ι] in
theorem session_eq (hm : (S.job i).method = .reported m) (met : List Delivery) :
    S.session i met = (endState ((Worker.reportedStep (deliverOf met) (S.job i).topic (reportName m)
      (getParam (S.job i).parameters "stepid")
      (stepTool S.tools S.strOther m (S.job i).parameters) (handlerOut m)).run
        (Worker.Run.start (S.job i).api (S.world i)))).session := by
  unfold Setting.session
  rw [hm]
  rw [← callReported_eq]
  rfl

omit [DecidableEq ι] in
theorem run_stepTool (m : ReportedMethod) :
    (stepTool S.tools S.strOther m (S.job i).parameters).run
      (Worker.Run.start (S.job i).api (S.world i)).world = S.tool i m := rfl

omit [DecidableEq ι] in
theorem session_linux (hm : ∀ m, (S.job i).method ≠ .reported m) :
    S.session i [] = ⟨(S.job i).api, []⟩ := by
  unfold Setting.session
  cases h : (S.job i).method with
  | ping => exact Worker.ping_session ..
  | runShell => exact Worker.runShell_session ..
  | reported m => exact absurd h (hm m)

omit [DecidableEq ι] in
/-- The tool returns, and its report brings nothing back. -/
theorem session_first (hm : (S.job i).method = .reported m)
    (htool : S.tool i m = .ok (out, status) w) {d : Delivery} (hd : d.raises = none) :
    S.session i [d] = ⟨(S.job i).server ((S.job i).api.finishFlag - if d.reached then 1 else 0),
      [(S.job i).report m out status]⟩ := by
  rw [session_eq hm, Worker.endState_reportedStep_ok _ _ _ _ _ _ ((run_stepTool m).trans htool) hd]
  rfl

omit [DecidableEq ι] in
/-- Its report brings an exception back that the handler cannot report. -/
theorem session_unhandled (hm : (S.job i).method = .reported m)
    (htool : S.tool i m = .ok (out, status) w) {e' : PyError}
    (hout : handlerOut m e.message = .error e') :
    S.session i [.handled (.error e) true] =
      ⟨(S.job i).server ((S.job i).api.finishFlag - 1), [(S.job i).report m out status]⟩ := by
  have hrun := (run_stepTool m).trans htool
  rw [session_eq hm, Worker.endState_reportedStep_raised (e := e) _ _ _ _ _ _ hrun rfl, hout]
  rfl

omit [DecidableEq ι] in
/-- Its report brings an exception back that the handler reports. -/
theorem session_both (hm : (S.job i).method = .reported m)
    (htool : S.tool i m = .ok (out, status) w) {out' : PyVal}
    (hout : handlerOut m e.message = .ok out') (d : Delivery) :
    S.session i [.handled (.error e) true, d] =
      ⟨(S.job i).server ((S.job i).api.finishFlag - 1 - if d.reached then 1 else 0),
        [(S.job i).report m out status, (S.job i).report m out' .fail]⟩ := by
  have hrun := (run_stepTool m).trans htool
  rw [session_eq hm, Worker.endState_reportedStep_raised (e := e) _ _ _ _ _ _ hrun rfl, hout]
  rfl

omit [DecidableEq ι] in
/-- The tool raises what the handler reports. -/
theorem session_handler (hm : (S.job i).method = .reported m) (htool : S.tool i m = .error e w)
    (hout : handlerOut m e.message = .ok out) (d : Delivery) :
    S.session i [d] = ⟨(S.job i).server ((S.job i).api.finishFlag - if d.reached then 1 else 0),
      [(S.job i).report m out .fail]⟩ := by
  have hrun := (run_stepTool m).trans htool
  rw [session_eq hm, Worker.endState_reportedStep_error _ _ _ _ _ _ hrun, hout]
  rfl

omit [DecidableEq ι] in
/-- The tool raises what the handler cannot report. -/
theorem session_silent (hm : (S.job i).method = .reported m) (htool : S.tool i m = .error e w)
    {e' : PyError} (hout : handlerOut m e.message = .error e') :
    S.session i [] = ⟨(S.job i).api, []⟩ := by
  have hrun := (run_stepTool m).trans htool
  rw [session_eq hm, Worker.endState_reportedStep_error _ _ _ _ _ _ hrun, hout]
  rfl

end

/-- The reports up to the one that is on its way. -/
def Setting.Sofar (i : ι) (inTry : Bool) (s : JobState) : Prop :=
  ∃ m, (S.job i).method = .reported m ∧
    if inTry then
      ∃ out status w, S.tool i m = .ok (out, status) w ∧
        s.sent = [(S.job i).report m out status] ∧ s.met = []
    else ∃ out e, handlerOut m e.message = .ok out ∧
      ((∃ w, S.tool i m = .error e w ∧ s.sent = [(S.job i).report m out .fail] ∧ s.met = []) ∨
        ∃ out' status w, S.tool i m = .ok (out', status) w ∧
          s.sent = [(S.job i).report m out' status, (S.job i).report m out .fail] ∧
          s.met = [.handled (.error e) true])

/-- A job that has ended is the call of its method. -/
def Setting.Sound (i : ι) (s : JobState) : Prop :=
  match s.phase with
  | .waiting => s = (S.job i).waiting
  | .sending inTry => S.Sofar i inTry s ∧
      s.finishFlag = (S.job i).api.finishFlag - s.met.length
  | .recording inTry _ => S.Sofar i inTry s ∧
      s.finishFlag = (S.job i).api.finishFlag - s.met.length - 1
  | .ended => S.session i s.met = ⟨(S.job i).server s.finishFlag, s.sent⟩

variable {S} {i : ι}

omit [DecidableEq ι] in
/-- A report that meets `d` ends the job, if `d` brings nothing back to its `try` block. -/
theorem sound_meet {inTry : Bool} {s : JobState} (hs : S.Sofar i inTry s) {d : Delivery}
    (hd : inTry = true → d.raises = none)
    (hflag : s.finishFlag = (S.job i).api.finishFlag - s.met.length - if d.reached then 1 else 0) :
    S.Sound i (s.meet d) := by
  obtain ⟨m, hm, hs⟩ := hs
  show S.session i (s.met ++ [d]) = ⟨(S.job i).server s.finishFlag, s.sent⟩
  rw [hflag]
  cases inTry with
  | true =>
    obtain ⟨out, status, w, htool, hsent, hmet⟩ := hs
    rw [hsent, hmet, List.nil_append, session_first hm htool (hd rfl)]
    simp
  | false =>
    obtain ⟨out, e, hout, h⟩ := hs
    rcases h with ⟨w, htool, hsent, hmet⟩ | ⟨out', status, w, htool, hsent, hmet⟩
    · rw [hsent, hmet, List.nil_append, session_handler hm htool hout]
      simp
    · rw [hsent, hmet, List.singleton_append, session_both hm htool hout]
      simp

omit [DecidableEq ι] in
theorem sound_start {s : JobState} (hs : s = (S.job i).waiting) : S.Sound i (S.start i s) := by
  subst hs
  unfold Setting.start
  split
  · next h =>
    exact session_linux (fun m hm => by rw [h] at hm; cases hm)
  · next h =>
    exact session_linux (fun m hm => by rw [h] at hm; cases hm)
  · next m hm =>
    split
    · next out status w htool =>
      refine ⟨⟨m, hm, out, status, w, htool, rfl, rfl⟩, ?_⟩
      simp [JobState.send, Job.waiting]
    · next e w htool =>
      unfold Setting.handle
      rw [hm]
      dsimp only
      split
      · next out hout =>
        refine ⟨⟨m, hm, out, e, hout, .inl ⟨w, htool, rfl, rfl⟩⟩, ?_⟩
        simp [JobState.send, Job.waiting]
      · next e' hout => exact session_silent hm htool hout

omit [DecidableEq ι] in
/-- **A job takes a step.** -/
theorem sound_step {row c : ReportColumns} {s s' : JobState} {e : JobEvent} (hs : S.Sound i s)
    (h : S.JobStep i row s e s' c) : S.Sound i s' := by
  unfold Setting.Sound at hs
  cases h with
  | start h =>
    rw [h] at hs
    exact sound_start hs
  | lose h =>
    rw [h] at hs
    exact sound_meet hs.1 (fun _ => rfl) (by rw [hs.2]; simp [Delivery.reached])
  | read h =>
    rw [h] at hs
    exact ⟨hs.1, by rw [hs.2]⟩
  | save h =>
    rw [h] at hs
    exact sound_meet hs.1 (fun _ => rfl) (by rw [hs.2]; simp [Delivery.reached])
  | @raise n inTry inTime _ _ e h =>
    rw [h] at hs
    obtain ⟨hsofar, hflag⟩ := hs
    cases hboth : inTry && inTime with
    | false =>
      rw [if_neg Bool.false_ne_true]
      refine sound_meet hsofar (fun htry => ?_) (by rw [hflag]; simp [Delivery.reached])
      -- the answer comes too late
      rw [htry, Bool.true_and] at hboth
      rw [hboth]
      rfl
    | true =>
      rw [if_pos rfl]
      obtain ⟨rfl, rfl⟩ := Bool.and_eq_true_iff.mp hboth
      obtain ⟨m, hm, out, status, w, htool, hsent, hmet⟩ := hsofar
      unfold Setting.handle
      rw [hm]
      dsimp only
      rw [hmet] at hflag
      split
      · next out' hout =>
        refine ⟨⟨m, hm, out', e, hout, .inr ⟨out, status, w, htool, ?_, ?_⟩⟩, ?_⟩
        · simp [JobState.send, JobState.meet, hsent]
        · simp [JobState.send, JobState.meet, hmet]
        · simp [JobState.send, JobState.meet, hmet, hflag]
      · next e' hout =>
        show S.session i (s.met ++ _) = ⟨(S.job i).server s.finishFlag, s.sent⟩
        rw [hmet, hsent, List.nil_append, session_unhandled hm htool hout, hflag]
        simp

end

end PolarBear.Plans
