import PolarBear.Lib.Fallible
import PolarBear.Report.Record

/-!
# `RPCClient.result`: how a worker reports a step

A worker runs one step of a plan and reports the outcome to the server that
waits for it. The report is a blocking call: the server decrements its
`finish_flag` first and only then records the status, and whatever recording
raises comes back to the worker and is raised there. A timeout is logged and
swallowed, so the worker cannot tell a lost report from a late one.

The state of a call is a `Run`: the server with the reports sent so far, and
the outside world the step works on. What happens to the `n`-th report is
`deliver n`, a parameter.

`reportedStep` is the shape the http and docker methods share: the success
report stands inside the `try` block whose handler sends the failure report.
-/

namespace PolarBear.Worker

open PolarBear.Py
open PolarBear.Fallible
open PolarBear.Report (ReportRPCAPI)

/-- The two statuses a step is reported with. -/
inductive Status where
  | pass
  | fail
  deriving DecidableEq, Repr

def Status.text : Status → String
  | .pass => "PASS"
  | .fail => "FAIL"

/-- What one call of `RPCClient.result` sends, and to whom. -/
structure Report where
  topic : String
  method : String
  out : PyVal
  status : Status
  stepid : Json

/-- What becomes of a report. It may never be handled while the call lasts; or
the server handles it, `report_result` ends as `recorded`, and the answer is in
time or comes after the worker gave up. -/
inductive Delivery where
  | lost
  | handled (recorded : Except PyError Unit) (inTime : Bool)

/-- The server handled the report. -/
def Delivery.reached : Delivery → Bool
  | .lost => false
  | .handled _ _ => true

/-- `ReportRPCAPI.result`: the flag goes down before the status is looked at. -/
def serverResult (recorded : Except PyError Unit) (arg : Report) (api : ReportRPCAPI) :
    ReportRPCAPI × Except PyError Unit :=
  ({ api with finishFlag := api.finishFlag - 1 },
    if arg.status.text = "" then .ok () else recorded)

/-- The server a worker reports to, and the reports sent to it. -/
structure Session where
  server : ReportRPCAPI
  sent : List Report

/-- The state of one call of a plugin method. -/
structure Run (κ : Type) where
  session : Session
  world : κ

variable {κ α : Type}

/-- A computation on the outside world only. -/
def onWorld (x : EStateM PyError κ α) : EStateM PyError (Run κ) α :=
  onPart Run.world (fun w run => { run with world := w }) x

/-- The blocking call: `report_rpcapi.result` under the handler that swallows
`MessagingTimeout`. -/
def send (deliver : Nat → Delivery) (arg : Report) : EStateM PyError (Run κ) Unit := do
  let run ← get
  let sent := run.session.sent ++ [arg]
  match deliver run.session.sent.length with
  | .lost => set { run with session := ⟨run.session.server, sent⟩ }
  | .handled recorded inTime =>
    let (server, answer) := serverResult recorded arg run.session.server
    set { run with session := ⟨server, sent⟩ }
    if inTime then ofExcept answer else pure ()

/-- A keyword argument of a call `result(...)`; the last one only some callers
pass. -/
inductive Keyword where
  | ctxt
  | method (v : String)
  | out (v : PyVal)
  | status (v : Status)
  | stepid (v : Json)
  | result (method : String) (out : PyVal) (status : Status)

def Keyword.name : Keyword → String
  | .ctxt => "ctxt"
  | .method _ => "method"
  | .out _ => "out"
  | .status _ => "status"
  | .stepid _ => "stepid"
  | .result _ _ _ => "result"

/-- The signature `result(self, ctxt, method, out, status, stepid)`. -/
def resultSignature : List String := ["ctxt", "method", "out", "status", "stepid"]

/-- Python's binding of keyword arguments to that signature. -/
def bindResult (topic : String) (kws : List Keyword) : Except PyError Report :=
  match kws.find? (fun k => !resultSignature.contains k.name) with
  | some k => .error (.of .typeError
      ("result() got an unexpected keyword argument '" ++ k.name ++ "'"))
  | none =>
    match kws.findSome? (fun | .method v => some v | _ => none),
      kws.findSome? (fun | .out v => some v | _ => none),
      kws.findSome? (fun | .status v => some v | _ => none),
      kws.findSome? (fun | .stepid v => some v | _ => none),
      kws.any (fun | .ctxt => true | _ => false) with
    | some method, some out, some status, some stepid, true =>
      .ok ⟨topic, method, out, status, stepid⟩
    | _, _, _, _, _ => .error (.of .typeError "result() takes exactly 6 arguments")

/-- `RPCClient(topic=topic).result(**kws)`. -/
def result (deliver : Nat → Delivery) (topic : String) (kws : List Keyword) :
    EStateM PyError (Run κ) Unit := do
  let arg ← ofExcept (bindResult topic kws)
  send deliver arg

/-- The body of the http and docker methods. `tool` does the work and gives
`out` and `status`; `handlerOut` is what the handler makes of `e.message`. -/
def reportedStep (deliver : Nat → Delivery) (topic method : String) (stepid : Json)
    (tool : EStateM PyError κ (PyVal × Status)) (handlerOut : PyVal → Except PyError PyVal) :
    EStateM PyError (Run κ) Unit :=
  tryCatch
    (do
      let (out, status) ← onWorld tool
      result deliver topic [.ctxt, .method method, .out out, .status status, .stepid stepid])
    (fun (e : PyError) => do
      let out ← ofExcept (handlerOut e.message)
      result deliver topic [.ctxt, .method method, .out out, .status .fail, .stepid stepid])

/-! ## One report -/

/-- The state after a report is sent. -/
def Run.after (deliver : Nat → Delivery) (arg : Report) (run : Run κ) : Run κ :=
  { run with
    session :=
      { server := { run.session.server with
          finishFlag := run.session.server.finishFlag -
            if (deliver run.session.sent.length).reached then 1 else 0 }
        sent := run.session.sent ++ [arg] } }

/-- The exception a delivery brings back to the worker. -/
def Delivery.raises : Delivery → Option PyError
  | .handled (.error e) true => some e
  | _ => none

/-- **What a report does**: it is on its way whatever becomes of it, the flag
goes down exactly when the server handles it, and the worker sees the server's
exception if the answer is in time. -/
theorem run_send (deliver : Nat → Delivery) (arg : Report) (run : Run κ) :
    (send deliver arg).run run =
      match (deliver run.session.sent.length).raises with
      | some e => .error e (run.after deliver arg)
      | none => .ok () (run.after deliver arg) := by
  have htext : arg.status.text ≠ "" := by
    cases arg.status <;> decide
  unfold send Run.after
  rw [EStateM.run_bind, EStateM.run_get]
  cases hd : deliver run.session.sent.length with
  | lost => simp [hd, Delivery.raises, Delivery.reached]
  | handled recorded inTime =>
    cases inTime with
    | false => simp [hd, Delivery.raises, Delivery.reached, serverResult]
    | true =>
      cases recorded with
      | ok u =>
        simp [hd, Delivery.raises, Delivery.reached, serverResult, run_ofExcept_ok rfl]
      | error e =>
        simp [hd, Delivery.raises, Delivery.reached, serverResult, if_neg htext,
          run_ofExcept_error rfl]

/-- The state a report leaves. -/
theorem endState_send (deliver : Nat → Delivery) (arg : Report) (run : Run κ) :
    endState ((send deliver arg).run run) = run.after deliver arg := by
  rw [run_send]
  cases (deliver run.session.sent.length).raises with
  | none => rfl
  | some e => rfl

theorem run_result (deliver : Nat → Delivery) (topic method : String) (out : PyVal)
    (status : Status) (stepid : Json) (run : Run κ) :
    (result deliver topic
        [.ctxt, .method method, .out out, .status status, .stepid stepid]).run run =
      (send deliver ⟨topic, method, out, status, stepid⟩).run run := rfl

/-- The state the handler's report leaves; without a text there is none. -/
def failed (deliver : Nat → Delivery) (topic method : String) (stepid : Json)
    (out : Except PyError PyVal) (run : Run κ) : Run κ :=
  match out with
  | .ok out => run.after deliver ⟨topic, method, out, .fail, stepid⟩
  | .error _ => run

/-- **The reports of one step.** A tool that raises is reported by the handler.
A tool that succeeds is reported as it says, and reported again as failed if
that first report brings an exception back. -/
theorem endState_reportedStep (deliver : Nat → Delivery) (topic method : String) (stepid : Json)
    (tool : EStateM PyError κ (PyVal × Status)) (handlerOut : PyVal → Except PyError PyVal)
    (run : Run κ) :
    endState ((reportedStep deliver topic method stepid tool handlerOut).run run) =
      match tool.run run.world with
      | .error e w => failed deliver topic method stepid (handlerOut e.message)
          { run with world := w }
      | .ok (out, status) w =>
        let sent := Run.after deliver ⟨topic, method, out, status, stepid⟩ { run with world := w }
        match (deliver run.session.sent.length).raises with
        | none => sent
        | some e => failed deliver topic method stepid (handlerOut e.message) sent := by
  -- what the handler does from the state the exception left
  have hhandler : ∀ (e : PyError) (r : Run κ),
      endState ((ofExcept (handlerOut e.message) >>= fun out => result deliver topic
          [.ctxt, .method method, .out out, .status .fail, .stepid stepid]).run r)
        = failed deliver topic method stepid (handlerOut e.message) r := by
    intro e r
    rw [EStateM.run_bind]
    cases handlerOut e.message with
    | ok out => exact endState_send ..
    | error e' => rfl
  unfold reportedStep
  rw [run_tryCatch, EStateM.run_bind, onWorld, run_onPart]
  cases htool : tool.run run.world with
  | error e w => exact hhandler e _
  | ok p w =>
    obtain ⟨out, status⟩ := p
    simp only [run_result, run_send]
    cases (deliver run.session.sent.length).raises with
    | none => rfl
    | some e => exact hhandler e _

section

variable (deliver : Nat → Delivery) (topic method : String) (stepid : Json)
  {tool : EStateM PyError κ (PyVal × Status)} (handlerOut : PyVal → Except PyError PyVal)
  (run : Run κ) {out : PyVal} {status : Status} {e : PyError} {w : κ}

/-- The tool raises. -/
theorem endState_reportedStep_error (htool : tool.run run.world = .error e w) :
    endState ((reportedStep deliver topic method stepid tool handlerOut).run run) =
      failed deliver topic method stepid (handlerOut e.message) { run with world := w } := by
  rw [endState_reportedStep, htool]

/-- The tool succeeds, and so does the report. -/
theorem endState_reportedStep_ok (htool : tool.run run.world = .ok (out, status) w)
    (hraises : (deliver run.session.sent.length).raises = none) :
    endState ((reportedStep deliver topic method stepid tool handlerOut).run run) =
      Run.after deliver ⟨topic, method, out, status, stepid⟩ { run with world := w } := by
  rw [endState_reportedStep, htool]
  dsimp only
  rw [hraises]

/-- The tool succeeds, and its report brings an exception back. -/
theorem endState_reportedStep_raised (htool : tool.run run.world = .ok (out, status) w)
    (hraises : (deliver run.session.sent.length).raises = some e) :
    endState ((reportedStep deliver topic method stepid tool handlerOut).run run) =
      failed deliver topic method stepid (handlerOut e.message)
        (Run.after deliver ⟨topic, method, out, status, stepid⟩ { run with world := w }) := by
  rw [endState_reportedStep, htool]
  dsimp only
  rw [hraises]

end

end PolarBear.Worker
