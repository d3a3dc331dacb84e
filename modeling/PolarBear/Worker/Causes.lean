import PolarBear.Docker.Failures
import PolarBear.Worker.Steps

/-!
# Failed docker steps and their causes

A docker step that comes to one of the failures it checks for ends with a report, and the
report says `FAIL` (`stepHits_reported`). But it carries what the interpreter says about the
statement that was to raise the failure, so no message ever reaches the server:
`causes_reported_iff`.
-/

namespace PolarBear.Worker

open PolarBear.Py
open PolarBear.Fallible
open PolarBear.Docker

variable {κ : Type}

section

variable (tools : Tools κ) (strOther : Json → String) (parameters : List (String × Json))

/-- A docker step comes to a failure. -/
inductive StepHits : ReportedMethod → κ → Failure → Prop
  | start {d d₁ : κ} {f : Failure} :
      (tools.docker.connect (getParam parameters "api_version")).run d = .ok () d₁ →
      StartHits strOther tools.docker ⟨parameters, false, d₁⟩ f → StepHits .startContainer d f
  | command {d d₁ d₂ : κ} :
      (tools.docker.connect (.str "auto")).run d = .ok () d₁ →
      (tools.docker.containers (.filters (getParam parameters "name") "running")).run d₁ =
        .ok [] d₂ →
      StepHits .dockerCommand d .notRunning

/-- The step ended with a failed report that has the text. -/
def EndsWithCause (before after : Run κ) (text : String) : Prop :=
  ∃ reports r, after.session.sent = before.session.sent ++ (reports ++ [r]) ∧
    r.status = .fail ∧ textOf r.out = some text

/-- Every failure is reported with its message, and a stream without an error is pulled. -/
structure CausesReported (deliver : Nat → Delivery) (topic : String) (run : Run κ) : Prop where
  reported : ∀ m f, StepHits tools strOther parameters m run.world f →
    EndsWithCause run
      (endState ((callReported tools strOther deliver m parameters topic).run run)) f.message
  pulled : PullsClean tools.docker ⟨parameters, false, run.world⟩ →
    ∃ w', (pullImage tools.docker).run ⟨parameters, false, run.world⟩ = .ok () w'

end

/-! ## What is reported -/

variable {tools : Tools κ} {strOther : Json → String} {parameters : List (String × Json)}
  {deliver : Nat → Delivery} {topic : String} {run : Run κ} {m : ReportedMethod} {f : Failure}

/-- A method of a new worker raises what the method raises. -/
theorem run_withWorker_error {client : DockerClient κ} {method : Method κ Unit} {d d₁ : κ}
    {e : PyError} {w : DockerWorker κ}
    (hconnect : (client.connect (getParam parameters "api_version")).run d = .ok () d₁)
    (hraises : method.run ⟨parameters, false, d₁⟩ = .error e w) :
    (withWorker client parameters method).run d = .error e w.dc := by
  have hrun : (runMethod parameters method).run d₁ = .error e w.dc := by
    unfold runMethod EStateM.run
    dsimp only
    split
    · next hok => cases hraises.symm.trans hok
    · next herror =>
      cases hraises.symm.trans herror
      rfl
  unfold withWorker
  rw [run_bind_ok hconnect]
  exact hrun

/-- What the tool raises at a failure. -/
theorem stepHits_raises (h : StepHits tools strOther parameters m run.world f) :
    ∃ w, (stepTool tools strOther m parameters).run run.world = .error f.raised w := by
  cases h with
  | start hconnect hstart =>
    obtain ⟨w, hraises⟩ := startContainer_hits hstart
    exact ⟨w.dc, run_bind_error (run_withWorker_error hconnect hraises)⟩
  | command hconnect hnone =>
    show ∃ w, (dockerCommandTool tools parameters).run run.world = _
    unfold dockerCommandTool
    rw [run_bind_ok hconnect, run_bind_ok hnone]
    exact ⟨_, rfl⟩

/-- Every exception of a failure has a text. -/
theorem dockerHandlerOut_raised (f : Failure) :
    dockerHandlerOut f.raised.message = .ok f.raised.message := by
  cases f <;> rfl

/-- **A failed step is reported**, once and as failed, with what the interpreter says. -/
theorem stepHits_reported (deliver : Nat → Delivery) (topic : String)
    (h : StepHits tools strOther parameters m run.world f) :
    ∃ r, (endState ((callReported tools strOther deliver m parameters topic).run run)).session.sent
        = run.session.sent ++ [r] ∧
      r.status = .fail ∧ r.out = f.raised.message ∧ r.stepid = getParam parameters "stepid" := by
  obtain ⟨w, hraises⟩ := stepHits_raises h
  -- the tool raises, and the handler reports what it finds in the exception
  have hstep : ∀ method, endState ((reportedStep deliver topic method
        (getParam parameters "stepid") (stepTool tools strOther m parameters)
        dockerHandlerOut).run run) =
      Run.after deliver ⟨topic, method, f.raised.message, .fail, getParam parameters "stepid"⟩
        { run with world := w } := by
    intro method
    rw [endState_reportedStep_error deliver topic method _ dockerHandlerOut run hraises,
      dockerHandlerOut_raised]
    rfl
  cases h with
  | start hconnect hstart =>
    exact ⟨_, congrArg (fun r : Run κ => r.session.sent) (hstep "get"), rfl, rfl, rfl⟩
  | command hconnect hnone =>
    exact ⟨_, congrArg (fun r : Run κ => r.session.sent) (hstep "docker_command"), rfl, rfl, rfl⟩

/-- No report of a failed step carries its message. -/
theorem not_endsWithCause (deliver : Nat → Delivery) (topic : String)
    (h : StepHits tools strOther parameters m run.world f) :
    ¬ EndsWithCause run
      (endState ((callReported tools strOther deliver m parameters topic).run run)) f.message := by
  obtain ⟨r, hsent, -, hout, -⟩ := stepHits_reported deliver topic h
  rintro ⟨reports, r', hsent', -, htext⟩
  rw [hsent] at hsent'
  have hlast : [r] = reports ++ [r'] := List.append_cancel_left hsent'
  have hr : r = r' := by simpa using congrArg List.getLast? hlast
  rw [← hr, hout] at htext
  exact textOf_raised_ne f htext

variable (tools strOther parameters deliver topic run) in
/-- **Main result.** The causes are reported exactly where there are none: where the step comes
to no failure, and `pull_image` to no stream without an error. -/
theorem causes_reported_iff :
    CausesReported tools strOther parameters deliver topic run ↔
      (∀ m f, ¬ StepHits tools strOther parameters m run.world f) ∧
        ¬ PullsClean tools.docker ⟨parameters, false, run.world⟩ := by
  constructor
  · intro h
    refine ⟨fun m f hhits => not_endsWithCause deliver topic hhits (h.reported m f hhits),
      fun hclean => ?_⟩
    obtain ⟨w', hpull⟩ := h.pulled hclean
    exact pullImage_raises tools.docker _ w' hpull
  · rintro ⟨hno, hstream⟩
    exact ⟨fun m f hhits => absurd hhits (hno m f), fun hclean => absurd hclean hstream⟩

/-- Tools of which only the docker client is used, that of a daemon. -/
def daemonTools : Tools Daemon where
  requestsGet _ := pure ⟨200, .ok ""⟩
  requestsPost _ _ := pure ⟨200, .ok ""⟩
  docker := daemonClient
  execute _ _ _ := pure (.bytes "", .bytes "")

/-- A command for `web`, where no container runs, is not reported as what it is. -/
theorem web_cause_lost :
    ¬ CausesReported daemonTools (fun _ => "None") [("name", .str "web"), ("command", .str "ls")]
      (fun _ => .lost) "worker" ⟨⟨⟨1, 1, "7", "login"⟩, []⟩, idleDaemon⟩ := by
  intro h
  have hhits : StepHits daemonTools (fun _ => "None")
      [("name", .str "web"), ("command", .str "ls")] .dockerCommand idleDaemon .notRunning :=
    .command rfl rfl
  exact not_endsWithCause _ _ hhits (h.reported _ _ hhits)

end PolarBear.Worker
