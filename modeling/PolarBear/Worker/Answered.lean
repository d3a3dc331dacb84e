import PolarBear.Docker.Printable
import PolarBear.Worker.AtMostOnce

/-!
# Whether a step is answered

A plan waits until every step has reported, so a call that ends without a
report leaves it waiting. The linux methods never report: they hand a keyword
argument to `RPCClient.result` that it does not have, and the `TypeError` ends
the call. The http and docker methods report whatever the tool did, except when
their handler fails first: it takes `str` of the exception's message, which
raises for text outside ASCII.

`answered_iff` is the exact condition on what the tool raises. The code around
the tools adds nothing to it (`stepTool_printable`): where no request and no
docker operation raises such a message, every http and docker step is answered.
-/

namespace PolarBear.Worker

open PolarBear.Py
open PolarBear.Fallible
open PolarBear.Report (ReportRPCAPI)
open PolarBear.Docker (Printable PrintableClient)

/-- Some report with status `PASS` or `FAIL` was sent. -/
def Answered {κ : Type} (after : Run κ) : Prop :=
  ∃ r ∈ after.session.sent, r.status.text = "PASS" ∨ r.status.text = "FAIL"

/-- Any report is one with status `PASS` or `FAIL`. -/
theorem answered_iff_sent {κ : Type} (after : Run κ) :
    Answered after ↔ after.session.sent ≠ [] := by
  constructor
  · intro h hnil
    obtain ⟨r, hr, -⟩ := h
    rw [hnil] at hr
    exact absurd hr List.not_mem_nil
  · intro h
    obtain ⟨r, hr⟩ := List.exists_mem_of_ne_nil _ h
    refine ⟨r, hr, ?_⟩
    cases r.status with
    | pass => exact Or.inl rfl
    | fail => exact Or.inr rfl

section

variable {κ : Type} (deliver : Nat → Delivery)

/-! ## The http and docker methods -/

/-- An exception of the tool, if it raises, has a message `str` accepts. -/
def Reportable (tool : EStateM PyError κ (PyVal × Status)) (world : κ) : Prop :=
  ∀ e w, tool.run world = .error e w → e.message.strOk

theorem failed_sent (topic method : String) (stepid : Json) (out : Except PyError PyVal)
    (run : Run κ) :
    (failed deliver topic method stepid out run).session.sent ≠ [] ↔
      run.session.sent ≠ [] ∨ ∃ o, out = .ok o := by
  cases out with
  | ok o =>
    show run.session.sent ++ [_] ≠ [] ↔ _
    simp
  | error e =>
    show run.session.sent ≠ [] ↔ _
    simp

theorem reportedStep_answered_iff (tool : EStateM PyError κ (PyVal × Status))
    (topic method : String) (stepid : Json) {handlerOut : PyVal → Except PyError PyVal}
    (hok : ∀ message, (∃ out, handlerOut message = .ok out) ↔ PyVal.strOk message)
    (server : ReportRPCAPI) (world : κ) :
    Answered (endState ((reportedStep deliver topic method stepid tool handlerOut).run
        (Run.start server world))) ↔ Reportable tool world := by
  rw [answered_iff_sent]
  unfold Reportable
  cases htool : tool.run world with
  | error e w =>
    rw [endState_reportedStep_error deliver topic method stepid handlerOut
      (Run.start server world) htool, failed_sent, hok]
    constructor
    · intro h e' w' heq
      cases heq
      exact h.resolve_left (fun hne => hne rfl)
    · intro h
      exact Or.inr (h e w rfl)
  | ok p w =>
    obtain ⟨out, status⟩ := p
    -- the success report is sent whatever becomes of it
    have hfirst : ((Run.after deliver ⟨topic, method, out, status, stepid⟩
        (Run.start server w))).session.sent ≠ [] := by
      show [] ++ [_] ≠ []
      simp
    refine ⟨fun _ e' w' heq => absurd heq (by simp), fun _ => ?_⟩
    cases hraises : (deliver 0).raises with
    | none =>
      rw [endState_reportedStep_ok deliver topic method stepid handlerOut
        (Run.start server world) htool hraises]
      exact hfirst
    | some e =>
      rw [endState_reportedStep_raised deliver topic method stepid handlerOut
        (Run.start server world) htool hraises]
      exact (failed_sent ..).mpr (Or.inl hfirst)

/-- The same for the calls of the http and docker methods. -/
theorem callReported_answered_iff (tools : Tools κ) (strOther : Json → String)
    (m : ReportedMethod) (parameters : List (String × Json)) (topic : String)
    (server : ReportRPCAPI) (world : κ) :
    Answered (endState ((callReported tools strOther deliver m parameters topic).run
        (Run.start server world))) ↔ Reportable (stepTool tools strOther m parameters) world := by
  obtain ⟨method, handlerOut, hcall, hok⟩ :=
    callReported_eq tools strOther deliver m parameters topic
  rw [hcall]
  exact reportedStep_answered_iff deliver _ topic method _ hok server world

/-! ## The linux methods -/

/-- `result(ctxt=context, result=result)` raises before anything is sent. -/
theorem run_reportLinux (topic method : String) (out : PyVal) (status : Status) (run : Run κ) :
    endState ((reportLinux deliver topic method out status).run run) = run := by
  unfold reportLinux
  split
  · rfl
  · rfl

/-- Work on the world outside sends nothing. -/
theorem endState_onWorld_bind {α β : Type} (x : EStateM PyError κ α)
    {f : α → EStateM PyError (Run κ) β} (run : Run κ)
    (hf : ∀ a r, (endState ((f a).run r)).session = r.session) :
    (endState ((onWorld x >>= f).run run)).session = run.session := by
  rw [EStateM.run_bind, onWorld, run_onPart]
  cases x.run run.world with
  | ok a w => exact hf a _
  | error e w => rfl

/-- Neither does a computation that only raises or returns. -/
theorem endState_ofExcept_bind {α β : Type} (x : Except PyError α)
    {f : α → EStateM PyError (Run κ) β} (run : Run κ)
    (hf : ∀ a, (endState ((f a).run run)).session = run.session) :
    (endState (((ofExcept x : EStateM PyError (Run κ) α) >>= f).run run)).session
      = run.session := by
  rw [EStateM.run_bind]
  cases x with
  | ok a => exact hf a
  | error e => rfl

variable (tools : Tools κ) (strOther : Json → String) (parameters : List (String × Json))
  (topic : String)

theorem ping_session (run : Run κ) :
    (endState ((ping tools strOther deliver parameters topic).run run)).session
      = run.session := by
  unfold ping
  apply endState_ofExcept_bind
  intro count
  apply endState_ofExcept_bind
  intro interval
  split
  · rw [run_reportLinux]
  · apply endState_onWorld_bind
    intro p r
    rw [run_reportLinux]

theorem runShell_session (run : Run κ) :
    (endState ((runShell tools deliver parameters topic).run run)).session = run.session := by
  unfold runShell
  dsimp only
  split
  · rw [run_reportLinux]
  · apply endState_onWorld_bind
    intro p r
    rw [run_reportLinux]

end

/-! ## All seven -/

/-- When a step is answered: never by the linux methods, and by the others
unless their tool raises an exception with a message `str` rejects. -/
def CanAnswer {κ : Type} (tools : Tools κ) (strOther : Json → String) (m : StepMethod)
    (parameters : List (String × Json)) (world : κ) : Prop :=
  match m with
  | .ping | .runShell => False
  | .reported m => Reportable (stepTool tools strOther m parameters) world

/-- **Answered, exactly.** -/
theorem answered_iff {κ : Type} (tools : Tools κ) (strOther : Json → String)
    (deliver : Nat → Delivery) (m : StepMethod) (parameters : List (String × Json))
    (topic : String) (server : ReportRPCAPI) (world : κ) :
    Answered (endState ((call tools strOther deliver m parameters topic).run
        (Run.start server world))) ↔ CanAnswer tools strOther m parameters world := by
  cases m with
  | ping =>
    rw [answered_iff_sent]
    refine ⟨fun h => h ?_, fun h => h.elim⟩
    show (endState ((ping tools strOther deliver parameters topic).run _)).session.sent = []
    rw [ping_session]
    rfl
  | runShell =>
    rw [answered_iff_sent]
    refine ⟨fun h => h ?_, fun h => h.elim⟩
    show (endState ((runShell tools deliver parameters topic).run _)).session.sent = []
    rw [runShell_session]
    rfl
  | reported m =>
    exact callReported_answered_iff deliver tools strOther m parameters topic server world

/-- A `ping` that succeeds is not answered, and neither is a request that fails
with a message outside ASCII. -/
theorem step_unanswered :
    ¬ Answered (endState ((call
      (plainTools (throw ⟨.external, .unicode "délai"⟩) (pure (.bytes "1 received", .bytes "")))
      (fun _ => "4") (fun _ => .handled (.ok ()) true) .ping [("address", .str "10.0.0.1")]
      "report").run (Run.start ⟨1, 1, "7", "login"⟩ ()))) ∧
    ¬ Answered (endState ((call
      (plainTools (throw ⟨.external, .unicode "délai"⟩) (pure (.bytes "1 received", .bytes "")))
      (fun _ => "4") (fun _ => .handled (.ok ()) true) (.reported .get)
      [("url", .str "http://10.0.0.1/")] "report").run (Run.start ⟨1, 1, "7", "login"⟩ ()))) := by
  refine ⟨fun h => ?_, fun h => ?_⟩
  · exact (answered_iff_sent _).mp h rfl
  · exact (answered_iff_sent _).mp h rfl

/-! ## Where every message prints -/

/-- No request and no docker operation raises a message `str` rejects, and
neither does decoding a response. -/
structure PrintableTools {κ : Type} (tools : Tools κ) : Prop where
  requestsGet : ∀ url, Ends Printable (fun r => Raises Printable r.text) (tools.requestsGet url)
  requestsPost : ∀ url data,
    Ends Printable (fun r => Raises Printable r.text) (tools.requestsPost url data)
  docker : PrintableClient tools.docker

section

variable {κ : Type} {tools : Tools κ} (strOther : Json → String)

theorem httpTool_printable {request : EStateM PyError κ Response}
    (hrequest : Ends Printable (fun r => Raises Printable r.text) request) (url : Json) :
    RaisesOnly Printable (httpTool strOther request url) := by
  unfold httpTool
  refine hrequest.bind (fun response htext => ?_)
  refine (Ends.ofExcept htext).bind (fun out => ?_)
  exact (Ends.ofExcept (Docker.raises_pyStr strOther url)).bind (fun _ => Ends.pure trivial)

theorem dockerCommandTool_printable (hclient : PrintableClient tools.docker)
    (parameters : List (String × Json)) :
    RaisesOnly Printable (dockerCommandTool tools parameters) := by
  unfold dockerCommandTool
  refine (hclient.connect _).bind (fun _ => ?_)
  refine (hclient.containers _).bind (fun found => ?_)
  cases found with
  | nil => exact Ends.throw Docker.printable_raisedText
  | cons con rest =>
    refine (hclient.execCreate _ _).bind (fun job => ?_)
    exact (hclient.execStart job).bind (fun _ => Ends.pure trivial)

/-- **The code around the tools raises nothing `str` rejects.** -/
theorem stepTool_printable (htools : PrintableTools tools) (m : ReportedMethod)
    (parameters : List (String × Json)) :
    RaisesOnly Printable (stepTool tools strOther m parameters) := by
  cases m with
  | get => exact httpTool_printable strOther (htools.requestsGet _) _
  | post => exact httpTool_printable strOther (htools.requestsPost _ _) _
  | startContainer =>
    exact (Docker.withWorker_printable htools.docker
      (Docker.startContainer_printable htools.docker strOther) parameters).bind
        (fun _ => Ends.pure trivial)
  | removeContainer =>
    exact (Docker.withWorker_printable htools.docker
      (Docker.removeContainer_printable htools.docker strOther) parameters).bind
        (fun _ => Ends.pure trivial)
  | dockerCommand => exact dockerCommandTool_printable htools.docker parameters

/-- **Every http and docker step is answered** where every message prints,
whatever its parameters and whatever becomes of its reports. -/
theorem callReported_answered (htools : PrintableTools tools) (deliver : Nat → Delivery)
    (m : ReportedMethod) (parameters : List (String × Json)) (topic : String)
    (server : ReportRPCAPI) (world : κ) :
    Answered (endState ((callReported tools strOther deliver m parameters topic).run
      (Run.start server world))) := by
  rw [callReported_answered_iff]
  intro e w hraise
  have hends := (stepTool_printable strOther htools m parameters).run world
  rw [hraise] at hends
  exact hends

end

end PolarBear.Worker
